import Mathlib.Data.Fintype.EquivFin
import NyxNet.Daemon.DiscoverPeers

/-!
# What a discovery makes of its request

`discover_peers` of `nyx-daemon/src/path_builder.rs` against the limit and the
criteria that it is called with.  The peers of the cache are compared with the
criteria; `matches_criteria_proto`, which does that for fresh peers, is called
by nothing.  A request is honoured whatever the network answers only where no
answer can be taken that is wrong, and one that can be is built here.
-/

namespace NyxNet.Paths

open Dht LimitedPush

namespace DhtPeerDiscovery

variable {discovery : DhtPeerDiscovery} {parse : String → Option Multiaddr}
  {network : Network} {criteria : DiscoveryCriteria} {cache : PeerCache}
  {ages : String → UInt64} {elapsedSecs : UInt64}
  {peers : List ProtoPeerInfo} {peer : ProtoPeerInfo}

/-- No more peers than the limit, distinct and by their latency, and all of them
match as what they are, cached or fresh. -/
structure HonoursRequest (discovery : DhtPeerDiscovery) (network : Network)
    (criteria : DiscoveryCriteria) (cache : PeerCache) (ages : String → UInt64)
    (peers : List ProtoPeerInfo) : Prop where
  within : peers.length ≤ discovery.maxPeersPerQuery
  distinct : (peers.map ProtoPeerInfo.nodeId).Nodup
  sorted : peers.Pairwise fun left right => left.latencyMs ≤ right.latencyMs
  matching : ∀ peer ∈ peers, IsCached criteria cache ages peer ∨
    network.Names criteria peer ∧ matchesCriteriaProto peer criteria = true

/-- The status tells a fresh peer from a cached one. -/
theorem not_isCached_of_names (named : network.Names criteria peer) :
    ¬ IsCached criteria cache ages peer := by
  obtain ⟨index, nodes, -, answered, -, made⟩ := named
  rintro ⟨entry, -, -, converted⟩
  have fresh : "connected" = "discovered" :=
    (congrArg ProtoPeerInfo.status converted).trans (marks_of_peer made).2
  exact absurd fresh (by decide)

theorem mem_discoverPeers_iff
    (found : discovery.discoverPeers parse network criteria cache ages
      elapsedSecs = .ok peers) :
    peer ∈ peers ↔ stays peer = true ∧
      (peer ∈ discovery.cachedHits criteria cache ages ∨
        ∃ freshPeers,
          ((discovery.cachedHits criteria cache ages).length <
              discovery.maxPeersPerQuery ∨
            discovery.refreshIntervalSecs < elapsedSecs) ∧
          discovery.performActiveDiscovery parse network criteria =
            .ok freshPeers ∧
          peer ∈ newcomers discovery.maxPeersPerQuery
            (discovery.cachedHits criteria cache ages) freshPeers) := by
  obtain ⟨merged, made, rfl⟩ := discoverPeers_cases found
  rw [List.mem_mergeSort, List.mem_filter, and_comm]
  refine and_congr_right fun _ => ?_
  obtain ⟨full, recent, rfl⟩ | ⟨due, freshPeers, performed, rfl⟩ :=
    mergedPeers_cases made
  · constructor
    · exact Or.inl
    · rintro (hit | ⟨_, room | late, -⟩)
      · exact hit
      · exact absurd room (Nat.not_lt.mpr full)
      · exact absurd late (UInt64.not_lt.mpr recent)
  · rw [merge_eq_append performed, List.mem_append]
    refine or_congr_right ⟨fun member => ⟨freshPeers, due, performed, member⟩, ?_⟩
    rintro ⟨_, -, again, member⟩
    rw [performed] at again
    cases again
    exact member

/-- Where the criteria are not tested, the fresh peers that are taken happen to
match. -/
def Tame (discovery : DhtPeerDiscovery) (parse : String → Option Multiaddr)
    (network : Network) (criteria : DiscoveryCriteria) (cache : PeerCache)
    (ages : String → UInt64) (elapsedSecs : UInt64) : Prop :=
  Untested criteria → ∀ freshPeers,
    ((discovery.cachedHits criteria cache ages).length <
        discovery.maxPeersPerQuery ∨
      discovery.refreshIntervalSecs < elapsedSecs) →
    discovery.performActiveDiscovery parse network .all = .ok freshPeers →
    ∀ peer ∈ newcomers discovery.maxPeersPerQuery
        (discovery.cachedHits criteria cache ages) freshPeers,
      stays peer = true → matchesCriteriaProto peer criteria = true

theorem matching_iff
    (found : discovery.discoverPeers parse network criteria cache ages
      elapsedSecs = .ok peers) :
    (∀ peer ∈ peers, IsCached criteria cache ages peer ∨
      network.Names criteria peer ∧
        matchesCriteriaProto peer criteria = true) ↔
    discovery.Tame parse network criteria cache ages elapsedSecs := by
  have named : ∀ {freshPeers}, discovery.performActiveDiscovery parse network
      criteria = .ok freshPeers → ∀ peer ∈ newcomers discovery.maxPeersPerQuery
        (discovery.cachedHits criteria cache ages) freshPeers,
      network.Names criteria peer := by
    intro freshPeers performed peer member
    exact (gathered_performActiveDiscovery performed).1.named peer
      (List.mem_filter.mp (List.mem_of_mem_take member)).1
  constructor
  · intro matching untested freshPeers due performed peer member stayed
    rw [← performActiveDiscovery_of_untested untested] at performed
    have returned : peer ∈ peers := (mem_discoverPeers_iff found).mpr
      ⟨stayed, .inr ⟨freshPeers, due, performed, member⟩⟩
    exact ((matching peer returned).resolve_left
      (not_isCached_of_names (named performed peer member))).2
  · intro tame peer returned
    obtain ⟨stayed, hit | ⟨freshPeers, due, performed, member⟩⟩ :=
      (mem_discoverPeers_iff found).mp returned
    · exact .inl (isCached_of_hit hit)
    · refine .inr ⟨named performed peer member, ?_⟩
      by_cases untested : Untested criteria
      · rw [performActiveDiscovery_of_untested untested] at performed
        exact tame untested freshPeers due performed peer member stayed
      · exact matches_of_tested untested found peer returned

/-- A discovery honours its request unless a refresh goes beyond the limit or,
where the criteria are by region, latency or bandwidth, takes a peer that a
discovery of all peers finds and that does not match. -/
theorem honoursRequest_iff (discovery : DhtPeerDiscovery)
    (parse : String → Option Multiaddr) (network : Network)
    (criteria : DiscoveryCriteria) (cache : PeerCache) (keyed : cache.Keyed)
    (ages : String → UInt64) (elapsedSecs : UInt64) (peers : List ProtoPeerInfo)
    (positive : 0 < discovery.maxPeersPerQuery)
    (found : discovery.discoverPeers parse network criteria cache ages
      elapsedSecs = .ok peers) :
    HonoursRequest discovery network criteria cache ages peers ↔
      ¬ discovery.Overfull parse network criteria cache ages elapsedSecs ∧
        discovery.Tame parse network criteria cache ages elapsedSecs := by
  have room := length_discoverPeers_le_iff positive found
  have tested := matching_iff found
  constructor
  · rintro ⟨within, -, -, matching⟩
    exact ⟨room.mp within, tested.mp matching⟩
  · rintro ⟨within, tame⟩
    exact ⟨room.mpr within, nodup_discoverPeers keyed found,
      sorted_discoverPeers found, tested.mpr tame⟩

/-- The peers of the cache that match. -/
def matchingEntries (criteria : DiscoveryCriteria) (cache : PeerCache) :
    PeerCache :=
  List.filter (fun entry => matchesCriteria entry.2 criteria) cache

/-- The network is asked: the cache has fewer matching peers than the limit or
the last discovery lies too far back, and a bootstrap peer can be reached. -/
def Asks (discovery : DhtPeerDiscovery) (criteria : DiscoveryCriteria)
    (cache : PeerCache) (elapsedSecs : UInt64) : Prop :=
  discovery.dhtInitialized = true ∧
    (∃ bootstrapAddr ∈ discovery.bootstrapPeers, ∃ socketAddr,
      multiaddrToSocketAddr bootstrapAddr = .ok socketAddr) ∧
    ((matchingEntries criteria cache).length < discovery.maxPeersPerQuery ∨
      discovery.refreshIntervalSecs < elapsedSecs)

/-- A refresh of a cache that fills the limit with peers all of which stay. -/
def Refills (discovery : DhtPeerDiscovery) (criteria : DiscoveryCriteria)
    (cache : PeerCache) (elapsedSecs : UInt64) : Prop :=
  discovery.refreshIntervalSecs < elapsedSecs ∧
    discovery.maxPeersPerQuery ≤ (matchingEntries criteria cache).length ∧
    ∀ entry ∈ (matchingEntries criteria cache).take discovery.maxPeersPerQuery,
      entry.2.latencyMs.getD 0 < 1000

/-- Every fresh peer with a latency below 1000 matches, where connections take
one of the given times. -/
def Harmless (times : Float → Prop) : DiscoveryCriteria → Prop
  | .byRegion _ => False
  | .byLatency maxLatency => 999 ≤ maxLatency ∧
      ∀ latency, times latency → latency < 1000 → latency ≤ maxLatency
  | .byBandwidth minBandwidth => minBandwidth ≤ 100
  | _ => True

/-- Every connection to a node of an answer took one of the given times. -/
def TimedBy (times : Float → Prop) (network : Network) : Prop :=
  ∀ index nodes,
    (network.bootstrap index = .findNodeResponse nodes ∨
      network.neighbors index = .findNodeResponse nodes) →
    ∀ answered ∈ nodes, ∀ latency ∈ answered.connection, times latency

theorem cachedHits_of_positive (positive : 0 < discovery.maxPeersPerQuery) :
    discovery.cachedHits criteria cache ages =
      ((matchingEntries criteria cache).take discovery.maxPeersPerQuery).map
        fun entry => convertToPeerInfo entry.2 (ages entry.1) := by
  rw [cachedHits_eq, Nat.max_eq_right positive, List.map_take]
  rfl

theorem length_cachedHits (positive : 0 < discovery.maxPeersPerQuery) :
    (discovery.cachedHits criteria cache ages).length =
      min discovery.maxPeersPerQuery (matchingEntries criteria cache).length := by
  rw [cachedHits_of_positive positive, List.length_map, List.length_take]

theorem stays_hits_iff (positive : 0 < discovery.maxPeersPerQuery) :
    (∀ hit ∈ discovery.cachedHits criteria cache ages, stays hit = true) ↔
      ∀ entry ∈ (matchingEntries criteria cache).take
          discovery.maxPeersPerQuery,
        entry.2.latencyMs.getD 0 < 1000 := by
  rw [cachedHits_of_positive positive, List.forall_mem_map]
  refine forall₂_congr fun entry _ => ?_
  have connected : ¬ "connected" = "failed" := by decide
  simp [stays, convertToPeerInfo, connected]

/-- Too many peers are returned only by a refresh of a full cache. -/
theorem refills_of_overfull (positive : 0 < discovery.maxPeersPerQuery)
    (overfull : discovery.Overfull parse network criteria cache ages
      elapsedSecs) :
    discovery.Refills criteria cache elapsedSecs := by
  obtain ⟨freshPeers, late, -, fills, allStay, -⟩ := overfull
  rw [length_cachedHits positive] at fills
  exact ⟨late, min_eq_left_iff.mp fills, (stays_hits_iff positive).mp allStay⟩

/-- How the constants of the estimates and of the tests compare. -/
theorem constants_compare :
    ((1 : Float) ≤ 999 ∧ (50 : Float) ≤ 999 ∧ (100 : Float) ≤ 999 ∧
        (999 : Float) ≤ 999) ∧
      ((100 : Float) ≤ 1000 ∧ (100 : Float) ≤ 500 ∧ (100 : Float) ≤ 100) ∧
      ((1 : Float) < 1000 ∧ (999 : Float) < 1000 ∧ (1000 : Float) ≤ 5000 ∧
        (100 : Float) > 0 ∧ (1000 : Float) > 0) ∧
      ((1 : Float) < 100 && (1000 : Float) > 100) = true ∧
      ((1 : Float) > 200 || (1000 : Float) < 50 || (0.95 : Float) < 0.7) =
        false ∧ ¬ (0.95 : Float) < 0.8 := by
  decide +kernel

theorem estimate_cases (addr : Multiaddr) (connection : Option Float) :
    (estimatePeerLatency addr connection).getD 999 ≤ 999 ∨
      ∃ latency ∈ connection,
        (estimatePeerLatency addr connection).getD 999 = latency := by
  obtain ⟨one, fifty, hundred, most⟩ := constants_compare.1
  unfold estimatePeerLatency
  cases extractIpFromMultiaddr addr with
  | none => exact .inl most
  | some ipStr =>
      simp only [Option.map_some, Option.getD_some]
      split
      · cases connection with
        | some latency => exact .inr ⟨latency, rfl, rfl⟩
        | none =>
            left
            simp only
            split
            · exact one
            · exact hundred
      · exact .inl fifty

theorem hundred_le_estimatePeerBandwidth (address : String) :
    100 ≤ estimatePeerBandwidth address := by
  obtain ⟨thousand, half, hundred⟩ := constants_compare.2.1
  unfold estimatePeerBandwidth
  simp only
  split
  · exact thousand
  · split
    · exact half
    · exact hundred

/-- A fresh peer that stays matches harmless criteria. -/
theorem matches_of_harmless {times : Float → Prop} {other : DiscoveryCriteria}
    (timed : TimedBy times network) (harmless : Harmless times criteria)
    (untested : Untested criteria) (named : network.Names other peer)
    (stayed : stays peer = true) :
    matchesCriteriaProto peer criteria = true := by
  obtain ⟨index, nodes, answer, answered, member, made⟩ := named
  have took := timed index nodes answer answered member
  obtain ⟨normalizedAddr, -, rfl⟩ := eq_of_peer made
  cases untested with
  | byRegion region => exact harmless.elim
  | byLatency maxLatency =>
      obtain ⟨constant, measured⟩ := harmless
      rw [stays, Bool.and_eq_true, decide_eq_true_eq, decide_eq_true_eq]
        at stayed
      refine decide_eq_true ?_
      obtain estimated | ⟨latency, isMeasured, same⟩ :=
        estimate_cases answered.node.address answered.connection
      · exact FloatOrder.le_trans estimated constant
      · have below := stayed.2
        simp only [same] at below ⊢
        exact measured latency (took latency isMeasured) below
  | byBandwidth minBandwidth =>
      refine decide_eq_true ?_
      exact FloatOrder.le_trans harmless
        (hundred_le_estimatePeerBandwidth normalizedAddr)

/-- A network in which every bootstrap peer names one node. -/
def naming (answered : AnsweredNode) : Network where
  bootstrap := fun _ => .findNodeResponse [answered]
  neighbors := fun _ => .failed .network

section Naming

variable {answered : AnsweredNode} (made : answered.peer criteria = some peer)
include made

theorem queried_naming {bootstrapAddr : Multiaddr} {socketAddr : SocketAddr}
    (reached : multiaddrToSocketAddr bootstrapAddr = .ok socketAddr)
    (index : Nat) :
    connectAndQueryBootstrapPeer criteria bootstrapAddr
      ((naming answered).bootstrap index) = .ok [peer] := by
  simp [connectAndQueryBootstrapPeer, reached, naming, made]

theorem marked_naming :
    [peer].map (fun found => { found with connectionCount := 1 }) = [peer] := by
  rw [List.map_singleton, ← (marks_of_peer made).1]

/-- The others name the same node again. -/
theorem bootstrapPhase_again (discovery : DhtPeerDiscovery) (index : Nat)
    (bootstrapPeers : List Multiaddr) (successCount : Nat) :
    ∃ more, discovery.bootstrapPhase (naming answered) criteria index
      bootstrapPeers ([peer], successCount) =
        ([peer], successCount + more) := by
  induction bootstrapPeers generalizing index successCount with
  | nil => exact ⟨0, rfl⟩
  | cons bootstrapAddr rest ih =>
      rw [bootstrapPhase]
      cases reached : multiaddrToSocketAddr bootstrapAddr with
      | error error =>
          simp only [connectAndQueryBootstrapPeer, reached]
          split
          · exact ⟨0, rfl⟩
          · exact ih (index + 1) successCount
      | ok socketAddr =>
          have known : pushAll (unknown ProtoPeerInfo.nodeId) [peer] [peer] =
              [peer] := by
            simp [pushAll, unknown]
          simp only [queried_naming made reached, marked_naming made, known]
          split
          · exact ⟨1, rfl⟩
          · obtain ⟨more, again⟩ := ih (index + 1) (successCount + 1)
            exact ⟨1 + more, by rw [again, Nat.add_assoc]⟩

theorem bootstrapPhase_naming (positive : 0 < discovery.maxPeersPerQuery)
    (index : Nat) {bootstrapPeers : List Multiaddr}
    (reachable : ∃ bootstrapAddr ∈ bootstrapPeers, ∃ socketAddr,
      multiaddrToSocketAddr bootstrapAddr = .ok socketAddr) :
    ∃ successCount, discovery.bootstrapPhase (naming answered) criteria index
      bootstrapPeers ([], 0) = ([peer], successCount + 1) := by
  induction bootstrapPeers generalizing index with
  | nil =>
      obtain ⟨_, member, -⟩ := reachable
      cases member
  | cons bootstrapAddr rest ih =>
      rw [bootstrapPhase]
      cases reached : multiaddrToSocketAddr bootstrapAddr with
      | error error =>
          have later : ∃ other ∈ rest, ∃ socketAddr,
              multiaddrToSocketAddr other = .ok socketAddr := by
            obtain ⟨other, member, socketAddr, others⟩ := reachable
            obtain rfl | behind := List.mem_cons.mp member
            · rw [reached] at others
              cases others
            · exact ⟨other, behind, socketAddr, others⟩
          have room : ¬ discovery.maxPeersPerQuery ≤ 0 := by omega
          simp only [connectAndQueryBootstrapPeer, reached, List.length_nil,
            if_neg room]
          exact ih (index + 1) later
      | ok socketAddr =>
          have first : pushAll (unknown ProtoPeerInfo.nodeId) [] [peer] =
              [peer] := by
            simp [pushAll, unknown]
          simp only [queried_naming made reached, marked_naming made, first]
          split
          · exact ⟨0, rfl⟩
          · obtain ⟨more, again⟩ :=
              bootstrapPhase_again made discovery (index + 1) rest 1
            exact ⟨more, by rw [again, Nat.add_comm 1 more]⟩

omit made in
theorem neighborLoop_naming (seedPeers queryPeers : List ProtoPeerInfo)
    (index : Nat) (queriedPeers : List String) :
    discovery.neighborLoop parse (naming answered) criteria seedPeers index
      queriedPeers queryPeers [] = [] := by
  induction queryPeers generalizing index queriedPeers with
  | nil => rfl
  | cons seedPeer rest ih =>
      have unanswered : ∀ peerAddr, ∃ error, queryPeerForNeighbors criteria
          peerAddr ((naming answered).neighbors index) = .error error := by
        intro peerAddr
        unfold queryPeerForNeighbors
        cases multiaddrToSocketAddr peerAddr with
        | error error => exact ⟨_, rfl⟩
        | ok socketAddr => exact ⟨_, rfl⟩
      rw [neighborLoop]
      split
      · exact ih (index + 1) queriedPeers
      · cases parse seedPeer.address with
        | none =>
            simp only [ih, ite_self]
        | some peerAddr =>
            obtain ⟨error, failed⟩ := unanswered peerAddr
            simp only [failed, ih, ite_self]

/-- The node is what a discovery finds, if its peer passes the assessment. -/
theorem performActiveDiscovery_naming (parse : String → Option Multiaddr)
    (positive : 0 < discovery.maxPeersPerQuery)
    (initialized : discovery.dhtInitialized = true)
    (reachable : ∃ bootstrapAddr ∈ discovery.bootstrapPeers, ∃ socketAddr,
      multiaddrToSocketAddr bootstrapAddr = .ok socketAddr)
    (usable : isUsable peer = true)
    (fits : criteria = .highPerformance →
      (peer.latencyMs < 100 && peer.bandwidthMbps > 100) = true) :
    discovery.performActiveDiscovery parse (naming answered) criteria =
      .ok [peer] := by
  obtain ⟨successCount, bootstrapped⟩ :=
    bootstrapPhase_naming made positive 0 reachable
  have assessed : assessAndFilterDiscoveredPeers criteria [peer] = [peer] := by
    have kept : [peer].filter isUsable = [peer] := by simp [usable]
    have answers : (peer.connectionCount > 0) = True := by
      rw [(marks_of_peer made).1]
      decide
    unfold assessAndFilterDiscoveredPeers
    rw [kept]
    cases criteria with
    | highPerformance =>
        simp only [List.filter_singleton, fits rfl, cond_true,
          List.mergeSort_singleton]
    | reliability =>
        simp only [List.filter_singleton, answers, decide_true, cond_true,
          List.mergeSort_singleton]
    | byRegion | byCapability | byLatency | byBandwidth | random | all
    | geographicDiversity => simp only [List.mergeSort_singleton]
  have alone : ∀ limit, pushUpTo (unknown ProtoPeerInfo.nodeId) limit [peer]
      [] = [peer] := fun _ => rfl
  unfold performActiveDiscovery performIterativeDiscovery
  simp only [initialized, if_true, bootstrapped, neighborLoop_naming, alone,
    ite_self, assessed]

omit made in
theorem timedBy_naming {times : Float → Prop}
    (timed : ∀ latency ∈ answered.connection, times latency) :
    TimedBy times (naming answered) := by
  intro index nodes answer other member
  obtain named | failed := answer
  · cases named
    rw [List.mem_singleton.mp member]
    exact timed
  · cases failed

/-- A node that is named takes a place that is not there, or does not match. -/
theorem not_honours_naming (parse : String → Option Multiaddr)
    (positive : 0 < discovery.maxPeersPerQuery) (keyed : cache.Keyed)
    (asks : discovery.Asks criteria cache elapsedSecs)
    (usable : isUsable peer = true)
    (fits : criteria = .highPerformance →
      (peer.latencyMs < 100 && peer.bandwidthMbps > 100) = true)
    (fresh : peer.nodeId ∉ (discovery.cachedHits criteria cache ages).map
      ProtoPeerInfo.nodeId) (stayed : stays peer = true)
    (bad : discovery.Refills criteria cache elapsedSecs ∨
      Untested criteria ∧ matchesCriteriaProto peer criteria = false) :
    ∃ peers, discovery.discoverPeers parse (naming answered) criteria cache
        ages elapsedSecs = .ok peers ∧
      ¬ HonoursRequest discovery (naming answered) criteria cache ages
        peers := by
  obtain ⟨initialized, reachable, needs⟩ := asks
  have performed := performActiveDiscovery_naming made parse positive
    initialized reachable usable fits
  have due : (discovery.cachedHits criteria cache ages).length <
      discovery.maxPeersPerQuery ∨
        discovery.refreshIntervalSecs < elapsedSecs := by
    rw [length_cachedHits positive]
    exact needs.imp_left fun few => by omega
  obtain ⟨peers, found⟩ : ∃ peers, discovery.discoverPeers parse
      (naming answered) criteria cache ages elapsedSecs = .ok peers := by
    unfold discoverPeers mergedPeers
    simp only [performed, if_pos due]
    exact ⟨_, rfl⟩
  have taken : peer ∈ newcomers discovery.maxPeersPerQuery
      (discovery.cachedHits criteria cache ages) [peer] := by
    have kept : [peer].filter (fun fresh => fresh.nodeId ∉
        (discovery.cachedHits criteria cache ages).map
          ProtoPeerInfo.nodeId) = [peer] :=
      List.filter_eq_self.mpr fun other member => by
        rw [List.mem_singleton.mp member]
        exact decide_eq_true fresh
    have one : [peer].length ≤ max 1 (discovery.maxPeersPerQuery -
        (discovery.cachedHits criteria cache ages).length) :=
      Nat.le_max_left _ _
    rw [newcomers, kept, List.take_of_length_le one]
    exact List.mem_singleton_self peer
  refine ⟨peers, found, ?_⟩
  rw [honoursRequest_iff discovery parse (naming answered) criteria cache keyed
    ages elapsedSecs peers positive found]
  rintro ⟨within, tame⟩
  obtain ⟨late, full, allStay⟩ | ⟨untested, differs⟩ := bad
  · refine within ⟨[peer], late, performed, ?_, ?_, peer, taken, stayed⟩
    · rw [length_cachedHits positive]
      exact Nat.min_eq_left full
    · exact (stays_hits_iff positive).mpr allStay
  · rw [performActiveDiscovery_of_untested untested] at performed
    have agrees := tame untested [peer] due performed peer taken stayed
    rw [differs] at agrees
    cases agrees

end Naming

/-- Where no bootstrap peer can be reached nothing is discovered. -/
theorem bootstrapPhase_unreachable (index : Nat)
    {bootstrapPeers : List Multiaddr}
    (unreachable : ¬ ∃ bootstrapAddr ∈ bootstrapPeers, ∃ socketAddr,
      multiaddrToSocketAddr bootstrapAddr = .ok socketAddr) :
    discovery.bootstrapPhase network criteria index bootstrapPeers ([], 0) =
      ([], 0) := by
  induction bootstrapPeers generalizing index with
  | nil => rfl
  | cons bootstrapAddr rest ih =>
      rw [bootstrapPhase]
      cases reached : multiaddrToSocketAddr bootstrapAddr with
      | error error =>
          have later := ih (index + 1) (by
            rintro ⟨other, member, socketAddr, others⟩
            have behind := List.mem_cons_of_mem bootstrapAddr member
            exact unreachable ⟨other, behind, socketAddr, others⟩)
          simp only [connectAndQueryBootstrapPeer, reached, later, ite_self]
      | ok socketAddr =>
          exact absurd ⟨bootstrapAddr, List.mem_cons_self, socketAddr, reached⟩
            unreachable

theorem freshPeers_of_unreachable {freshPeers : List ProtoPeerInfo}
    (unreachable : ¬ ∃ bootstrapAddr ∈ discovery.bootstrapPeers, ∃ socketAddr,
      multiaddrToSocketAddr bootstrapAddr = .ok socketAddr)
    (performed : discovery.performActiveDiscovery parse network criteria =
      .ok freshPeers) :
    freshPeers = [] := by
  unfold performActiveDiscovery at performed
  rw [bootstrapPhase_unreachable 0 unreachable] at performed
  split at performed
  · cases performed
    refine List.eq_nil_iff_forall_not_mem.mpr fun peer member => ?_
    have discovered := (mem_assessAndFilterDiscoveredPeers member).1
    simp at discovered
  · cases performed

/-- Where the network is not asked no fresh peer is taken. -/
theorem newcomers_of_not_asks (ages : String → UInt64)
    (positive : 0 < discovery.maxPeersPerQuery) {other : DiscoveryCriteria}
    {freshPeers : List ProtoPeerInfo}
    (unasked : ¬ discovery.Asks criteria cache elapsedSecs)
    (due : (discovery.cachedHits criteria cache ages).length <
        discovery.maxPeersPerQuery ∨
      discovery.refreshIntervalSecs < elapsedSecs)
    (performed : discovery.performActiveDiscovery parse network other =
      .ok freshPeers) (limit : Nat) (hits : List ProtoPeerInfo) :
    newcomers limit hits freshPeers = [] := by
  have initialized : discovery.dhtInitialized = true := by
    unfold performActiveDiscovery at performed
    split at performed
    · assumption
    · cases performed
  have needs : (matchingEntries criteria cache).length <
      discovery.maxPeersPerQuery ∨
        discovery.refreshIntervalSecs < elapsedSecs := by
    rw [length_cachedHits positive] at due
    exact due.imp_left fun few => by omega
  have nothing : freshPeers = [] := by
    refine freshPeers_of_unreachable ?_ performed
    intro reachable
    exact unasked ⟨initialized, reachable, needs⟩
  rw [nothing, newcomers, List.filter_nil, List.take_nil]

def namedNode (peerId address : String) (connection : Option Float) :
    AnsweredNode where
  node :=
    { peerId
      address := ⟨address⟩
      publicKey := []
      lastSeen := SystemTime.unixEpoch
      avgResponseTime := Duration.zero }
  connection
  now := 0

/-- The peer of a node that is named by a normalized address. -/
def namedPeer (nodeId address : String) (latencyMs bandwidthMbps : Float)
    (region : String) : ProtoPeerInfo where
  nodeId
  address
  latencyMs
  bandwidthMbps
  status := "discovered"
  lastSeen := some ⟨0, 0⟩
  connectionCount := 1
  region

theorem peer_namedNode (criteria : DiscoveryCriteria) {address : String}
    (valid : validateAndNormalizeAddress address = .ok address)
    (peerId : String) (connection : Option Float) (latencyMs : Float)
    (estimated : (estimatePeerLatency ⟨address⟩ connection).getD 999 =
      latencyMs)
    (fast : criteria = .highPerformance → (latencyMs > 200 ||
      estimatePeerBandwidth address < 50 ||
      calculatePeerReliability address < 0.7) = false)
    (reliable : criteria = .reliability →
      ¬ calculatePeerReliability address < 0.8) :
    (namedNode peerId address connection).peer criteria =
      some (namedPeer peerId address latencyMs (estimatePeerBandwidth address)
        (determinePeerRegion address)) := by
  unfold AnsweredNode.peer convertDhtNodeToPeerInfo namedNode
  simp only [valid, estimated]
  cases criteria with
  | highPerformance =>
      simp only [fast rfl]
      rfl
  | reliability =>
      simp only [if_neg (reliable rfl)]
      rfl
  | byRegion | byCapability | byLatency | byBandwidth | random | all
  | geographicDiversity => rfl

/-- An address on the own machine, which passes every test. -/
def localAddress : String := "/ip4/127.0.0.1/dns4/a:443"

theorem localAddress_estimates :
    validateAndNormalizeAddress localAddress = .ok localAddress ∧
      estimatePeerBandwidth localAddress = 1000 ∧
      calculatePeerReliability localAddress = 0.95 ∧
      determinePeerRegion localAddress = "global" ∧
      extractIpFromMultiaddr ⟨localAddress⟩ = some "127.0.0.1".toList ∧
      (SocketAddr.parseIpv4 "127.0.0.1".toList).isSome = true ∧
      Str.contains localAddress.toList "127.0.0.1".toList = true := by
  decide +kernel

theorem latency_localAddress (connection : Option Float) :
    (estimatePeerLatency ⟨localAddress⟩ connection).getD 999 =
      connection.getD 1 := by
  obtain ⟨-, -, -, -, extracted, isIp, here⟩ := localAddress_estimates
  unfold estimatePeerLatency
  rw [extracted, Option.map_some, Option.getD_some, isIp, Bool.true_or,
    if_pos rfl]
  cases connection with
  | none =>
      exact if_pos (Bool.or_eq_true_iff.mpr (.inl here))
  | some latency => rw [Option.getD_some]

/-- The peer of the local address. -/
def localPeer (nodeId : String) (latencyMs : Float) : ProtoPeerInfo :=
  namedPeer nodeId localAddress latencyMs 1000 "global"

theorem peer_localNode (criteria : DiscoveryCriteria) (peerId : String) :
    (namedNode peerId localAddress none).peer criteria =
      some (localPeer peerId 1) := by
  obtain ⟨valid, wide, reliability, region, -⟩ := localAddress_estimates
  obtain ⟨-, -, -, -, fast, reliable⟩ := constants_compare
  rw [peer_namedNode criteria valid peerId none 1 (latency_localAddress none) ?_
    ?_, wide, region, localPeer]
  · rw [wide, reliability]
    exact fun _ => fast
  · rw [reliability]
    exact fun _ => reliable

theorem peer_timedNode (peerId : String) (latency : Float) :
    (namedNode peerId localAddress (some latency)).peer .all =
      some (localPeer peerId latency) := by
  obtain ⟨valid, wide, -, region, -⟩ := localAddress_estimates
  rw [peer_namedNode .all valid peerId _ latency (latency_localAddress _) nofun
    nofun, wide, region, localPeer]

/-- An address without an IP address. -/
def remoteAddress : String := "/dns4/node.example.com:443"

theorem remoteAddress_estimates :
    validateAndNormalizeAddress remoteAddress = .ok remoteAddress ∧
      estimatePeerBandwidth remoteAddress = 100 ∧
      determinePeerRegion remoteAddress = "americas" ∧
      extractIpFromMultiaddr ⟨remoteAddress⟩ = none := by
  decide +kernel

/-- The peer of the remote address. -/
def remotePeer (nodeId : String) : ProtoPeerInfo :=
  namedPeer nodeId remoteAddress 999 100 "americas"

theorem peer_remoteNode (peerId : String) :
    (namedNode peerId remoteAddress none).peer .all =
      some (remotePeer peerId) := by
  obtain ⟨valid, narrow, region, extracted⟩ := remoteAddress_estimates
  have far : (estimatePeerLatency ⟨remoteAddress⟩ none).getD 999 = 999 := by
    unfold estimatePeerLatency
    rw [extracted, Option.map_none, Option.getD_none]
  rw [peer_namedNode .all valid peerId none 999 far nofun nofun, narrow, region,
    remotePeer]

theorem exists_freshId (ids : List String) : ∃ id, id ≠ "" ∧ id ∉ ids := by
  obtain ⟨id, unknown⟩ := Infinite.exists_notMem_finset ("" :: ids).toFinset
  rw [List.mem_toFinset, List.mem_cons, not_or] at unknown
  exact ⟨id, unknown⟩

theorem namedPeer_passes {nodeId address region : String}
    {latencyMs bandwidthMbps : Float} (named : nodeId ≠ "")
    (addressed : address ≠ "") (below : latencyMs < 1000)
    (linked : bandwidthMbps > 0) :
    isUsable (namedPeer nodeId address latencyMs bandwidthMbps region) = true ∧
      stays (namedPeer nodeId address latencyMs bandwidthMbps region) =
        true := by
  obtain ⟨-, -, ⟨-, -, most, -⟩, -⟩ := constants_compare
  have usable : latencyMs < 5000 := FloatOrder.lt_of_lt_of_le below most
  simp [isUsable, stays, namedPeer, named, addressed, below, usable, linked]

theorem localPeer_passes {nodeId : String} (named : nodeId ≠ "")
    {latencyMs : Float} (below : latencyMs < 1000) :
    isUsable (localPeer nodeId latencyMs) = true ∧
      stays (localPeer nodeId latencyMs) = true := by
  obtain ⟨-, -, ⟨-, -, -, -, linked⟩, -⟩ := constants_compare
  exact namedPeer_passes named (by decide) below linked

/-- A node can be named whose peer stays and does not match. -/
def Harmful (times : Float → Prop) (criteria : DiscoveryCriteria)
    (nodeId : String) : Prop :=
  ∃ (answered : AnsweredNode) (peer : ProtoPeerInfo),
    answered.peer criteria = some peer ∧
    (∀ latency ∈ answered.connection, times latency) ∧
    peer.nodeId = nodeId ∧ isUsable peer = true ∧ stays peer = true ∧
    matchesCriteriaProto peer criteria = false

theorem harmful_of_remote {times : Float → Prop} (untested : Untested criteria)
    {nodeId : String} (named : nodeId ≠ "")
    (differs : matchesCriteriaProto (remotePeer nodeId) criteria = false) :
    Harmful times criteria nodeId := by
  obtain ⟨-, -, ⟨-, far, -, linked, -⟩, -⟩ := constants_compare
  obtain ⟨usable, stayed⟩ := namedPeer_passes named
    (show remoteAddress ≠ "" by decide) far linked
  refine ⟨namedNode nodeId remoteAddress none, _, ?_, nofun, rfl, usable, stayed,
    differs⟩
  rw [peer_of_untested untested]
  exact peer_remoteNode nodeId

theorem harmful_of_timed {times : Float → Prop} (untested : Untested criteria)
    {nodeId : String} (named : nodeId ≠ "") {latency : Float}
    (took : times latency) (below : latency < 1000)
    (differs : matchesCriteriaProto (localPeer nodeId latency) criteria =
      false) :
    Harmful times criteria nodeId := by
  obtain ⟨usable, stayed⟩ := localPeer_passes named below
  refine ⟨namedNode nodeId localAddress (some latency), _, ?_, ?_, rfl, usable,
    stayed, differs⟩
  · rw [peer_of_untested untested]
    exact peer_timedNode nodeId latency
  · intro other isMeasured
    cases isMeasured
    exact took

theorem harmful_of_not_harmless {times : Float → Prop}
    (harmed : ¬ Harmless times criteria) {nodeId : String}
    (named : nodeId ≠ "") :
    Untested criteria ∧ Harmful times criteria nodeId := by
  cases criteria with
  | byRegion region =>
      have untested := Untested.byRegion region
      refine ⟨untested, ?_⟩
      obtain ⟨-, -, ⟨near, -⟩, -⟩ := constants_compare
      by_cases same : region = "global"
      · apply harmful_of_remote untested named
        rw [same]
        rfl
      · obtain ⟨usable, stayed⟩ := localPeer_passes named near
        refine ⟨_, _, peer_localNode _ nodeId, nofun, rfl, usable, stayed, ?_⟩
        exact decide_eq_false fun here => same here.symm
  | byLatency maxLatency =>
      have untested := Untested.byLatency maxLatency
      refine ⟨untested, ?_⟩
      by_cases constant : 999 ≤ maxLatency
      · have measured : ∃ latency, times latency ∧ latency < 1000 ∧
            ¬ latency ≤ maxLatency := by
          by_contra never
          refine harmed ⟨constant, fun latency took below => ?_⟩
          by_contra above
          exact never ⟨latency, took, below, above⟩
        obtain ⟨latency, took, below, above⟩ := measured
        exact harmful_of_timed untested named took below (decide_eq_false above)
      · exact harmful_of_remote untested named (decide_eq_false constant)
  | byBandwidth minBandwidth =>
      have untested := Untested.byBandwidth minBandwidth
      exact ⟨untested,
        harmful_of_remote untested named (decide_eq_false harmed)⟩
  | byCapability | random | all | geographicDiversity | reliability
  | highPerformance => exact absurd trivial harmed

/-- A request is honoured, whatever the network answers, unless the network is
asked and either the criteria are by region, latency or bandwidth so that some
node does not match, or the cache is refilled beyond the limit. -/
theorem requests_honoured_iff (discovery : DhtPeerDiscovery)
    (parse : String → Option Multiaddr) (times : Float → Prop)
    (criteria : DiscoveryCriteria) (cache : PeerCache) (keyed : cache.Keyed)
    (ages : String → UInt64) (elapsedSecs : UInt64)
    (positive : 0 < discovery.maxPeersPerQuery) :
    (∀ network peers, TimedBy times network →
      discovery.discoverPeers parse network criteria cache ages elapsedSecs =
        .ok peers →
      HonoursRequest discovery network criteria cache ages peers) ↔
    (discovery.Asks criteria cache elapsedSecs →
      ¬ discovery.Refills criteria cache elapsedSecs ∧
        Harmless times criteria) := by
  constructor
  · intro honours asks
    obtain ⟨nodeId, named, fresh⟩ := exists_freshId
      ((discovery.cachedHits criteria cache ages).map ProtoPeerInfo.nodeId)
    constructor
    · intro refills
      have made := peer_localNode criteria nodeId
      obtain ⟨-, -, ⟨near, -⟩, fast, -⟩ := constants_compare
      obtain ⟨usable, stayed⟩ := localPeer_passes named near
      obtain ⟨peers, found, violated⟩ := not_honours_naming made parse positive
        keyed asks usable (fun _ => fast) fresh stayed (.inl refills)
      exact violated (honours _ peers (timedBy_naming nofun) found)
    · by_contra harmed
      obtain ⟨untested, answered, peer, made, timed, rfl, usable, stayed,
        differs⟩ := harmful_of_not_harmless harmed named
      have fits : criteria = .highPerformance →
          (peer.latencyMs < 100 && peer.bandwidthMbps > 100) = true := by
        intro same
        rw [same] at untested
        cases untested
      obtain ⟨peers, found, violated⟩ := not_honours_naming made parse positive
        keyed asks usable fits fresh stayed (.inr ⟨untested, differs⟩)
      exact violated (honours _ peers (timedBy_naming timed) found)
  · intro safe network peers timed found
    rw [honoursRequest_iff discovery parse network criteria cache keyed ages
      elapsedSecs peers positive found]
    by_cases asks : discovery.Asks criteria cache elapsedSecs
    · obtain ⟨unfilled, harmless⟩ := safe asks
      refine ⟨fun overfull => unfilled (refills_of_overfull positive overfull), ?_⟩
      intro untested freshPeers due performed peer member stayed
      have named := (gathered_performActiveDiscovery performed).1.named peer
        (List.mem_filter.mp (List.mem_of_mem_take member)).1
      exact matches_of_harmless timed harmless untested named stayed
    · constructor
      · rintro ⟨freshPeers, late, performed, -, -, peer, member, -⟩
        rw [newcomers_of_not_asks ages positive asks (.inr late) performed]
          at member
        cases member
      · intro untested freshPeers due performed peer member
        rw [newcomers_of_not_asks ages positive asks due performed] at member
        cases member

/-- The answer names a node of another region, whose peer is returned. -/
theorem region_ignored :
    standardDiscovery.discoverPeers pairParse
        (naming (namedNode "peer_2" remoteAddress none)) (.byRegion "europe") []
        (fun _ => 0) 0 = .ok [remotePeer "peer_2"] ∧
      ¬ HonoursRequest standardDiscovery
        (naming (namedNode "peer_2" remoteAddress none)) (.byRegion "europe") []
        (fun _ => 0) [remotePeer "peer_2"] := by
  have named : (namedNode "peer_2" remoteAddress none).peer
      (.byRegion "europe") = some (remotePeer "peer_2") :=
    peer_remoteNode "peer_2"
  obtain ⟨-, -, ⟨-, far, -, linked, -⟩, -⟩ := constants_compare
  obtain ⟨usable, stayed⟩ := namedPeer_passes
    (show "peer_2" ≠ "" by decide) (show remoteAddress ≠ "" by decide) far linked
  have performed : standardDiscovery.performActiveDiscovery pairParse
      (naming (namedNode "peer_2" remoteAddress none)) (.byRegion "europe") =
        .ok [remotePeer "peer_2"] :=
    performActiveDiscovery_naming named pairParse (by decide) rfl
      ⟨⟨"/ip4/10.0.0.9/tcp/33445"⟩, List.mem_cons_self, _, rfl⟩ usable nofun
  refine ⟨discoverPeers_of_performed performed (.inl (by decide)) ?_
    (List.pairwise_singleton _ _), ?_⟩
  · exact List.filter_eq_self.mpr fun peer member => by
      rw [List.mem_singleton.mp member]
      exact stayed
  intro honours
  obtain ⟨entry, member, -⟩ | ⟨-, matched⟩ :=
    honours.matching (remotePeer "peer_2") List.mem_cons_self
  · cases member
  · exact absurd matched (by decide)

/-- With links of 100 Mbps and more asked for, every answer will do. -/
theorem requests_honoured_sample :
    standardDiscovery.Asks (.byBandwidth 100) [] 0 ∧
      ∀ network peers, TimedBy (fun _ => True) network →
        standardDiscovery.discoverPeers pairParse network (.byBandwidth 100) []
          (fun _ => 0) 0 = .ok peers →
        HonoursRequest standardDiscovery network (.byBandwidth 100) []
          (fun _ => 0) peers := by
  have asks : standardDiscovery.Asks (.byBandwidth 100) [] 0 :=
    ⟨rfl, ⟨⟨"/ip4/10.0.0.9/tcp/33445"⟩, List.mem_cons_self, _, rfl⟩,
      .inl (by decide)⟩
  refine ⟨asks, ?_⟩
  refine (requests_honoured_iff standardDiscovery pairParse (fun _ => True)
    (.byBandwidth 100) [] ⟨List.nodup_nil, nofun⟩ (fun _ => 0) 0
    (by decide)).mpr fun _ => ⟨?_, ?_⟩
  · rintro ⟨late, -⟩
    exact absurd late (by decide)
  · obtain ⟨-, ⟨-, -, hundred⟩, -⟩ := constants_compare
    exact hundred

end DhtPeerDiscovery

end NyxNet.Paths
