import Mathlib.Data.List.Perm.Subperm
import NyxNet.Daemon.DiscoverPeers
import NyxNet.Daemon.PathBuilder

/-!
# Paths over discovered peers

`build_onion_path` of `nyx-daemon/src/path_builder.rs` with the discovery that
it starts.  The hops of a path are discovered peers and all of them differ.
-/

namespace NyxNet.Paths

open Dht Crypto Onion

/-- `build_onion_path` with its call of `discover_peers`. -/
def discoverAndBuild (primitives : Primitives) (discovery : DhtPeerDiscovery)
    (parse : String → Option Multiaddr) (network : Network) (cache : PeerCache)
    (ages : String → UInt64) (elapsedSecs : UInt64) (draws : Nat → LayerDraw)
    (pathId : UInt64) (destination : String) (hopCount : Nat) :
    Outcome DiscoveryError BuiltPath :=
  match discovery.discoverPeers parse network .highPerformance cache ages
      elapsedSecs with
  | .error error => .failed error
  | .ok peers =>
      match buildOnionPath primitives parse (.ok peers) draws pathId destination
          hopCount with
      | .failed error => .failed (.dht error)
      | .panicked => .panicked
      | .returned path => .returned path

/-- A peer with an address that the path builder can connect to. -/
def isReachable (parse : String → Option Multiaddr) (peer : ProtoPeerInfo) :
    Bool :=
  match parse peer.address with
  | none => false
  | some address => (multiaddrToSocketAddr address).isOk

variable {primitives : Primitives} {parse : String → Option Multiaddr}
  {draws : Nat → LayerDraw}

theorem selectPeers_sublist (count : Nat) (available : List CachedPeerInfo) :
    List.Sublist (selectPeers count available) available := by
  induction count generalizing available with
  | zero =>
      rw [selectPeers]
      exact List.nil_sublist available
  | succ count ih =>
      cases available with
      | nil => exact List.Sublist.refl []
      | cons best available =>
          have kept : List.Sublist (retainDistant best available) available := by
            unfold retainDistant
            split
            · exact List.Sublist.refl available
            · exact List.filter_sublist
          exact ((ih (retainDistant best available)).trans kept).cons_cons best

theorem mem_of_selected {candidates : List CachedPeerInfo} {count : Nat}
    {peer : CachedPeerInfo}
    (selected : peer ∈ selectDiversePathPeers candidates count) :
    peer ∈ candidates :=
  List.mem_mergeSort.mp ((selectPeers_sublist _ _).subset selected)

/-- The candidates keep the ids of the peers that they are made of. -/
theorem map_peerId_candidates (peers : List ProtoPeerInfo) :
    List.Sublist
      ((peers.filterMap (candidate parse)).map CachedPeerInfo.peerId)
      (peers.map ProtoPeerInfo.nodeId) := by
  induction peers with
  | nil => exact List.Sublist.refl []
  | cons peer peers ih =>
      cases made : candidate parse peer with
      | none =>
          rw [List.filterMap_cons_none made]
          exact ih.cons peer.nodeId
      | some found =>
          obtain ⟨address, -, rfl⟩ := Option.map_eq_some_iff.mp made
          rw [List.filterMap_cons_some made]
          exact ih.cons_cons peer.nodeId

theorem exists_of_forall₂ {α β : Type*} {related : α → β → Prop}
    {lefts : List α} {rights : List β}
    (matched : List.Forall₂ related lefts rights) :
    ∀ left ∈ lefts, ∃ right ∈ rights, related left right := by
  induction matched with
  | nil =>
      intro left member
      cases member
  | cons first _ ih =>
      intro left member
      obtain rfl | later := List.mem_cons.mp member
      · exact ⟨_, List.mem_cons_self, first⟩
      · obtain ⟨right, rightMember, pair⟩ := ih left later
        exact ⟨right, List.mem_cons_of_mem _ rightMember, pair⟩

/-- A layer leads to the peer that it was made for. -/
def LayerFor (peer : CachedPeerInfo) (layer : OnionLayer × SocketAddr) : Prop :=
  layer.1.peerId = peer.peerId ∧
    ∃ address, peer.addresses.head? = some address ∧
      multiaddrToSocketAddr address = .ok layer.2

theorem layers_of_generateLayers {index : Nat} {peers : List CachedPeerInfo}
    {layers : List (OnionLayer × SocketAddr)}
    (generated : generateLayers primitives draws index peers =
      .returned layers) :
    List.Forall₂ LayerFor peers layers := by
  induction peers generalizing index layers with
  | nil =>
      cases generated
      exact .nil
  | cons peer peers ih =>
      rw [generateLayers] at generated
      split at generated
      · cases generated
      · next address addresses addressed =>
          split at generated
          · cases generated
          · next peerAddr reached =>
              split at generated
              · cases generated
              · cases generated
              · next rest generatedRest =>
                  cases generated
                  refine .cons ⟨rfl, address, ?_, reached⟩ (ih generatedRest)
                  rw [addressed, List.head?_cons]

/-- A peer with an address makes no layer abort. -/
theorem generateLayers_ne_panicked {index : Nat} {peers : List CachedPeerInfo}
    (addressed : ∀ peer ∈ peers, peer.addresses ≠ []) :
    generateLayers primitives draws index peers ≠ .panicked := by
  induction peers generalizing index with
  | nil =>
      intro panicked
      cases panicked
  | cons peer peers ih =>
      have rest : generateLayers primitives draws (index + 1) peers ≠
          .panicked :=
        ih fun other member => addressed other (List.mem_cons_of_mem _ member)
      intro panicked
      rw [generateLayers] at panicked
      split at panicked
      · next unaddressed =>
          exact addressed peer List.mem_cons_self unaddressed
      · split at panicked
        · cases panicked
        · split at panicked
          · cases panicked
          · next stopped => exact rest stopped
          · cases panicked

/-- The layers are made where every selected peer has an address that leads to
it; none of them is left out. -/
theorem exists_generateLayers_iff {index : Nat} {peers : List CachedPeerInfo}
    (addressed : ∀ peer ∈ peers, peer.addresses ≠ []) :
    (∃ layers, generateLayers primitives draws index peers =
        .returned layers) ↔
      ∀ peer ∈ peers, ∃ address socketAddr,
        peer.addresses.head? = some address ∧
          multiaddrToSocketAddr address = .ok socketAddr := by
  constructor
  · rintro ⟨layers, generated⟩ peer member
    obtain ⟨layer, -, -, address, first, reached⟩ :=
      exists_of_forall₂ (layers_of_generateLayers generated) peer member
    exact ⟨address, layer.2, first, reached⟩
  · intro reachable
    induction peers generalizing index with
    | nil => exact ⟨[], rfl⟩
    | cons peer peers ih =>
        obtain ⟨address, socketAddr, first, reached⟩ :=
          reachable peer List.mem_cons_self
        obtain ⟨layers, generated⟩ : ∃ layers, generateLayers primitives draws
            (index + 1) peers = .returned layers :=
          ih (fun other member => addressed other (List.mem_cons_of_mem _ member))
            fun other member => reachable other (List.mem_cons_of_mem _ member)
        obtain ⟨rest, shape⟩ := List.head?_eq_some_iff.mp first
        rw [generateLayers, shape]
        simp only [reached, generated]
        exact ⟨_, rfl⟩

theorem isReachable_of_leadsTo {peer : ProtoPeerInfo} {socketAddr : SocketAddr}
    (leads : LeadsTo parse peer socketAddr) : isReachable parse peer = true := by
  obtain ⟨found, multiaddr, made, first, reached⟩ := leads
  obtain ⟨address, parsed, rfl⟩ := Option.map_eq_some_iff.mp made
  cases first
  simp only [isReachable, parsed, reached]
  rfl

/-- Layers and the selected candidates that they were made for. -/
theorem built_of_discoverAndBuild {discovery : DhtPeerDiscovery}
    {network : Network} {cache : PeerCache} {ages : String → UInt64}
    {elapsedSecs pathId : UInt64} {destination : String} {hopCount : Nat}
    {path : BuiltPath}
    (built : discoverAndBuild primitives discovery parse network cache ages
      elapsedSecs draws pathId destination hopCount = .returned path) :
    ∃ peers, discovery.discoverPeers parse network .highPerformance cache ages
        elapsedSecs = .ok peers ∧
      path.layers.length = hopCount ∧
      List.Forall₂ LayerFor
        (selectDiversePathPeers (peers.filterMap (candidate parse)) hopCount)
        path.layers := by
  unfold discoverAndBuild at built
  cases found : discovery.discoverPeers parse network .highPerformance cache
      ages elapsedSecs with
  | error error =>
      rw [found] at built
      cases built
  | ok peers =>
      rw [found] at built
      simp only at built
      split at built
      · cases built
      · cases built
      · next other onion =>
          cases built
          have length := (buildOnionPath_returned onion).1
          rw [BuiltPath.onion, List.length_map] at length
          refine ⟨peers, rfl, length, ?_⟩
          unfold buildOnionPath at onion
          simp only at onion
          split at onion
          · cases onion
          · split at onion
            · cases onion
            · cases onion
            · next layers generated =>
                cases onion
                exact layers_of_generateLayers generated

theorem map_peerId_layers {peers : List CachedPeerInfo}
    {layers : List (OnionLayer × SocketAddr)}
    (made : List.Forall₂ LayerFor peers layers) :
    layers.map (fun layer => layer.1.peerId) =
      peers.map CachedPeerInfo.peerId := by
  induction made with
  | nil => rfl
  | cons first _ ih => rw [List.map_cons, List.map_cons, first.1, ih]

theorem exists_layerFor {peers : List CachedPeerInfo}
    {layers : List (OnionLayer × SocketAddr)}
    (made : List.Forall₂ LayerFor peers layers) :
    ∀ layer ∈ layers, ∃ peer ∈ peers, LayerFor peer layer :=
  exists_of_forall₂ (List.Forall₂.flip made)

/-- A candidate carries the address that was parsed. -/
theorem addresses_of_selected {peers : List ProtoPeerInfo} {count : Nat} :
    ∀ peer ∈ selectDiversePathPeers (peers.filterMap (candidate parse)) count,
      peer.addresses ≠ [] := by
  intro peer selected
  obtain ⟨protoPeer, -, made⟩ := List.mem_filterMap.mp (mem_of_selected selected)
  obtain ⟨address, -, rfl⟩ := Option.map_eq_some_iff.mp made
  exact List.cons_ne_nil address []

section Discovered

variable {discovery : DhtPeerDiscovery} {network : Network} {cache : PeerCache}
  {ages : String → UInt64} {elapsedSecs pathId : UInt64} {destination : String}
  {hopCount : Nat} {path : BuiltPath} {peers : List ProtoPeerInfo}

theorem discoverAndBuild_ne_panicked :
    discoverAndBuild primitives discovery parse network cache ages elapsedSecs
      draws pathId destination hopCount ≠ .panicked := by
  intro panicked
  unfold discoverAndBuild at panicked
  split at panicked
  · cases panicked
  · next peers found =>
      split at panicked
      · cases panicked
      · next stopped =>
          unfold buildOnionPath at stopped
          simp only at stopped
          split at stopped
          · cases stopped
          · split at stopped
            · cases stopped
            · next aborted =>
                exact generateLayers_ne_panicked addresses_of_selected aborted
            · cases stopped
      · cases panicked

/-- There is a path where enough candidates are found and every selected one can
be reached. -/
theorem exists_discoverAndBuild_iff
    (found : discovery.discoverPeers parse network .highPerformance cache ages
      elapsedSecs = .ok peers) :
    (∃ path, discoverAndBuild primitives discovery parse network cache ages
        elapsedSecs draws pathId destination hopCount = .returned path) ↔
      hopCount ≤ (peers.filterMap (candidate parse)).length ∧
        ∀ peer ∈ selectDiversePathPeers (peers.filterMap (candidate parse))
          hopCount, ∃ address socketAddr,
            peer.addresses.head? = some address ∧
              multiaddrToSocketAddr address = .ok socketAddr := by
  have generates : (∃ layers, generateLayers primitives draws 0
      (selectDiversePathPeers (peers.filterMap (candidate parse)) hopCount) =
        .returned layers) ↔ _ :=
    exists_generateLayers_iff addresses_of_selected
  rw [← generates]
  unfold discoverAndBuild buildOnionPath
  rw [found]
  by_cases few : (peers.filterMap (candidate parse)).length < hopCount
  · simp only [if_pos few, Nat.not_le.mpr few, false_and, iff_false]
    rintro ⟨path, built⟩
    cases built
  · simp only [if_neg few, Nat.le_of_not_lt few, true_and]
    cases generateLayers primitives draws 0 (selectDiversePathPeers
        (peers.filterMap (candidate parse)) hopCount) with
    | failed error => simp
    | panicked => simp
    | returned layers => simp

/-- The hops are discovered peers and differ from each other. -/
theorem shape_of_discoverAndBuild (keyed : cache.Keyed)
    (built : discoverAndBuild primitives discovery parse network cache ages
      elapsedSecs draws pathId destination hopCount = .returned path) :
    path.layers.length = hopCount ∧
      (path.layers.map fun layer => layer.1.peerId).Nodup ∧
      ∃ peers, discovery.discoverPeers parse network .highPerformance cache
          ages elapsedSecs = .ok peers ∧
        ∀ layer ∈ path.layers, ∃ peer ∈ peers,
          peer.nodeId = layer.1.peerId ∧ LeadsTo parse peer layer.2 ∧
            matchesCriteriaProto peer .highPerformance = true := by
  obtain ⟨peers, found, length, made⟩ := built_of_discoverAndBuild built
  have nodes := DhtPeerDiscovery.nodup_discoverPeers keyed found
  have candidates : ((peers.filterMap (candidate parse)).map
      CachedPeerInfo.peerId).Nodup :=
    nodes.sublist (map_peerId_candidates peers)
  have sorted : ((List.mergeSort (peers.filterMap (candidate parse))
      fun left right => !(calculatePathQualityScore right >
        calculatePathQualityScore left)).map CachedPeerInfo.peerId).Nodup :=
    ((List.mergeSort_perm _ _).map _).nodup_iff.mpr candidates
  refine ⟨length, ?_, peers, found, ?_⟩
  · rw [map_peerId_layers made]
    exact sorted.sublist ((selectPeers_sublist _ _).map _)
  · intro layer member
    obtain ⟨selected, selectedMember, sameId, address, addressed, reached⟩ :=
      exists_layerFor made layer member
    obtain ⟨peer, peerMember, isCandidate⟩ :=
      List.mem_filterMap.mp (mem_of_selected selectedMember)
    refine ⟨peer, peerMember, ?_, ⟨selected, address, isCandidate, addressed,
      reached⟩, highPerformance_discoverPeers found peer peerMember⟩
    obtain ⟨parsed, -, rfl⟩ := Option.map_eq_some_iff.mp isCandidate
    exact sameId.symm

theorem failed_of_few (keyed : cache.Keyed)
    (found : discovery.discoverPeers parse network .highPerformance cache ages
      elapsedSecs = .ok peers)
    (few : peers.countP (isReachable parse) < hopCount) :
    ∃ error, discoverAndBuild primitives discovery parse network cache ages
      elapsedSecs draws pathId destination hopCount = .failed error := by
  cases outcome : discoverAndBuild primitives discovery parse network cache
      ages elapsedSecs draws pathId destination hopCount with
  | failed error => exact ⟨error, rfl⟩
  | panicked => exact absurd outcome discoverAndBuild_ne_panicked
  | returned path =>
      obtain ⟨length, distinct, others, again, made⟩ :=
        shape_of_discoverAndBuild keyed outcome
      rw [found] at again
      cases again
      -- The hops are distinct peers that can be reached, so there are as many.
      have reachable : path.layers.map (fun layer => layer.1.peerId) ⊆
          (peers.filter (isReachable parse)).map ProtoPeerInfo.nodeId := by
        intro peerId member
        obtain ⟨layer, layerMember, rfl⟩ := List.mem_map.mp member
        obtain ⟨peer, peerMember, sameId, leads, -⟩ := made layer layerMember
        refine List.mem_map.mpr ⟨peer, List.mem_filter.mpr ⟨peerMember, ?_⟩,
          sameId⟩
        exact isReachable_of_leadsTo leads
      have enough := (List.subperm_of_subset distinct reachable).length_le
      rw [List.length_map, List.length_map, length,
        ← List.countP_eq_length_filter] at enough
      exact absurd few (Nat.not_lt.mpr enough)

end Discovered

/-- The random bytes differ from layer to layer. -/
def sampleDraws (index : Nat) : LayerDraw :=
  ⟨Vector.replicate 32 (UInt8.ofNat index),
    Vector.replicate 12 (UInt8.ofNat index)⟩

def sampleLayer (index : Nat) (peerId : String) : OnionLayer where
  key := (sampleDraws index).derivedKey samplePrimitives
  nonce := (sampleDraws index).nonce
  peerId

def hostAddress (host : UInt8) : SocketAddr := .v4 #v[10, 0, 0, host] 443

/-- Two hops over the peers of the cache. -/
def samplePath : BuiltPath where
  layers := [(sampleLayer 0 "peer_1", hostAddress 1),
    (sampleLayer 1 "peer_3", hostAddress 2)]
  pathId := 1
  destination := "example.org"

/-- The addresses of the fresh peers are not parsed. -/
theorem samplePath_built :
    discoverAndBuild samplePrimitives standardDiscovery pairParse fastNetwork
      pairCache (fun _ => 0) 400 sampleDraws 1
      "example.org" 2 = .returned samplePath := by
  have selected : selectDiversePathPeers (fastPeers.filterMap
      (candidate pairParse)) 2 = fastPeers.filterMap (candidate pairParse) := by
    unfold selectDiversePathPeers
    rw [List.mergeSort_of_pairwise (by decide +kernel)]
    rfl
  have reached : multiaddrToSocketAddr ⟨"/ip4/10.0.0.1/tcp/443"⟩ =
      .ok (hostAddress 1) := by
    decide +kernel
  have reachedNext : multiaddrToSocketAddr ⟨"/ip4/10.0.0.2/tcp/443"⟩ =
      .ok (hostAddress 2) := by
    decide +kernel
  have generated : generateLayers samplePrimitives sampleDraws 0
      (fastPeers.filterMap (candidate pairParse)) =
        .returned samplePath.layers := by
    have candidates : fastPeers.filterMap (candidate pairParse) =
        [{ storedPeer with responseTimeMs := none },
          { neighborPeer with responseTimeMs := none }] := rfl
    rw [candidates]
    simp only [generateLayers, storedPeer, neighborPeer, reached, reachedNext]
    rfl
  unfold discoverAndBuild
  rw [standardDiscovery_found]
  unfold buildOnionPath
  simp only [selected, generated]
  rfl

/-- The hops of a path are so many discovered peers as were asked for and differ
from each other.  Where fewer of them can be used there is an error. -/
theorem onion_path_shape (primitives : Primitives) (discovery : DhtPeerDiscovery)
    (parse : String → Option Multiaddr) (network : Network) (cache : PeerCache)
    (keyed : cache.Keyed) (ages : String → UInt64) (elapsedSecs : UInt64)
    (draws : Nat → LayerDraw) (pathId : UInt64) (destination : String)
    (hopCount : Nat) :
    (∀ path, discoverAndBuild primitives discovery parse network cache ages
        elapsedSecs draws pathId destination hopCount = .returned path →
      path.layers.length = hopCount ∧
        (path.layers.map fun layer => layer.1.peerId).Nodup ∧
        ∃ peers, discovery.discoverPeers parse network .highPerformance cache
            ages elapsedSecs = .ok peers ∧
          ∀ layer ∈ path.layers,
            layer.1.peerId ∈ peers.map ProtoPeerInfo.nodeId) ∧
    (∀ peers, discovery.discoverPeers parse network .highPerformance cache ages
        elapsedSecs = .ok peers →
      peers.countP (isReachable parse) < hopCount →
        ∃ error, discoverAndBuild primitives discovery parse network cache ages
          elapsedSecs draws pathId destination hopCount = .failed error) := by
  constructor
  · intro path built
    obtain ⟨length, distinct, peers, found, made⟩ :=
      shape_of_discoverAndBuild keyed built
    refine ⟨length, distinct, peers, found, ?_⟩
    intro layer member
    obtain ⟨peer, peerMember, sameId, -⟩ := made layer member
    exact List.mem_map.mpr ⟨peer, peerMember, sameId⟩
  · intro peers found few
    exact failed_of_few keyed found few

theorem onion_path_shape_sample :
    samplePath.layers.length = 2 ∧
      (samplePath.layers.map fun layer => layer.1.peerId).Nodup ∧
      ∃ peers, standardDiscovery.discoverPeers pairParse fastNetwork
          .highPerformance pairCache (fun _ => 0) 400 = .ok peers ∧
        ∀ layer ∈ samplePath.layers,
          layer.1.peerId ∈ peers.map ProtoPeerInfo.nodeId :=
  (onion_path_shape samplePrimitives standardDiscovery pairParse fastNetwork
    pairCache ⟨by decide, by decide⟩ (fun _ => 0) 400 sampleDraws 1
    "example.org" 2).1 samplePath samplePath_built

/-- Whatever was put into the cache before and whatever the network answers, a
path has a layer for every hop, its hops are discovered peers that match the
criteria and differ from each other, and every layer carries an address of its
peer.  Where fewer peers can be reached than hops are asked for, there is an
error and no path.  No other peer takes the place of a selected one that cannot
be reached. -/
theorem discovered_path_shape (primitives : Primitives)
    (discovery : DhtPeerDiscovery) (parse : String → Option Multiaddr)
    (network : Network) (loaded : PeerCache) (keyed : loaded.Keyed)
    (steps : List PeerCache.Step) (ages : String → UInt64)
    (elapsedSecs : UInt64) (draws : Nat → LayerDraw) (pathId : UInt64)
    (destination : String) (hopCount : Nat) :
    (∀ path, discoverAndBuild primitives discovery parse network
        (loaded.after parse steps) ages elapsedSecs draws pathId destination
          hopCount = .returned path →
      path.layers.length = hopCount ∧
        (path.layers.map fun layer => layer.1.peerId).Nodup ∧
        ∃ peers, discovery.discoverPeers parse network .highPerformance
            (loaded.after parse steps) ages elapsedSecs = .ok peers ∧
          ∀ layer ∈ path.layers, ∃ peer ∈ peers,
            peer.nodeId = layer.1.peerId ∧ LeadsTo parse peer layer.2 ∧
              matchesCriteriaProto peer .highPerformance = true) ∧
    (∀ peers, discovery.discoverPeers parse network .highPerformance
        (loaded.after parse steps) ages elapsedSecs = .ok peers →
      (peers.countP (isReachable parse) < hopCount →
        ∃ error, discoverAndBuild primitives discovery parse network
          (loaded.after parse steps) ages elapsedSecs draws pathId destination
            hopCount = .failed error) ∧
      ((∃ path, discoverAndBuild primitives discovery parse network
          (loaded.after parse steps) ages elapsedSecs draws pathId destination
            hopCount = .returned path) ↔
        hopCount ≤ (peers.filterMap (candidate parse)).length ∧
          ∀ peer ∈ selectDiversePathPeers (peers.filterMap (candidate parse))
            hopCount, ∃ address socketAddr,
              peer.addresses.head? = some address ∧
                multiaddrToSocketAddr address = .ok socketAddr)) := by
  have keyedAfter := keyed.after parse steps
  constructor
  · intro path built
    exact shape_of_discoverAndBuild keyedAfter built
  · intro peers found
    refine ⟨failed_of_few keyedAfter found, ?_⟩
    exact exists_discoverAndBuild_iff found

theorem discovered_path_shape_sample :
    samplePath.layers.length = 2 ∧
      (samplePath.layers.map fun layer => layer.1.peerId).Nodup ∧
      ∃ peers, standardDiscovery.discoverPeers pairParse fastNetwork
          .highPerformance (pairCache.after pairParse []) (fun _ => 0) 400 =
            .ok peers ∧
        ∀ layer ∈ samplePath.layers, ∃ peer ∈ peers,
          peer.nodeId = layer.1.peerId ∧ LeadsTo pairParse peer layer.2 ∧
            matchesCriteriaProto peer .highPerformance = true :=
  (discovered_path_shape samplePrimitives standardDiscovery pairParse
    fastNetwork pairCache ⟨by decide, by decide⟩ [] (fun _ => 0) 400
    sampleDraws 1 "example.org" 2).1 samplePath samplePath_built

end NyxNet.Paths
