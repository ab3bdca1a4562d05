import NyxNet.Crypto.Primitives
import NyxNet.Daemon.OnionPath
import NyxNet.Daemon.PeerDiscovery

/-!
# Building onion paths

`build_onion_path` of `nyx-daemon/src/path_builder.rs`: discovered peers become
candidates, the best of them are selected, and a key and a nonce are drawn for
the layer of every selected peer.
-/

namespace NyxNet.Paths

open Dht Crypto Onion

/-- `f64::min`, which passes over what is no number. -/
def minNumber (left right : Float) : Float :=
  if left.isNaN then right else if right < left then right else left

/-- `clamp(0.0, 1.0)`. -/
def clampUnit (value : Float) : Float :=
  if value < 0 then 0 else if value > 1 then 1 else value

/-- `calculate_path_quality_score`. -/
def calculatePathQualityScore (peer : CachedPeerInfo) : Float :=
  let score := peer.reliabilityScore
  let score := match peer.latencyMs with
    | some latency => score * ((200 - minNumber latency 200) / 200)
    | none => score
  let score := match peer.bandwidthMbps with
    | some bandwidth => score * (minNumber bandwidth 1000 / 1000)
    | none => score
  clampUnit score

def toRadians (degrees : Float) : Float :=
  degrees * (3.14159265358979323846 / 180)

/-- Geographic distance in kilometers (`calculate_distance`). -/
def calculateDistance (point1 point2 : Point) : Float :=
  let deltaLat := toRadians (point2.x - point1.x)
  let deltaLon := toRadians (point2.y - point1.y)
  let halfLat := Float.sin (deltaLat / 2)
  let halfLon := Float.sin (deltaLon / 2)
  let a := halfLat * halfLat + Float.cos (toRadians point1.x) *
    Float.cos (toRadians point2.x) * (halfLon * halfLon)
  6371 * (2 * Float.atan2 (Float.sqrt a) (Float.sqrt (1 - a)))

/-- The candidates that are not too close to a selected peer. -/
def retainDistant (selected : CachedPeerInfo)
    (available : List CachedPeerInfo) : List CachedPeerInfo :=
  match selected.location with
  | none => available
  | some location => available.filter fun peer =>
      match peer.location with
      | none => true
      | some peerLocation => calculateDistance location peerLocation > 500

/-- The loop of `select_diverse_path_peers`. -/
def selectPeers : Nat → List CachedPeerInfo → List CachedPeerInfo
  | 0, _ => []
  | _ + 1, [] => []
  | count + 1, best :: available =>
      best :: selectPeers count (retainDistant best available)

/-- `select_diverse_path_peers`, the best scores first. -/
def selectDiversePathPeers (candidates : List CachedPeerInfo) (count : Nat) :
    List CachedPeerInfo :=
  selectPeers count (candidates.mergeSort fun left right =>
    !(calculatePathQualityScore right > calculatePathQualityScore left))

/-- The random bytes of a layer. -/
structure LayerDraw where
  key : Vector UInt8 32
  nonce : Nonce
  deriving DecidableEq

variable (primitives : Primitives)

theorem keyLength_fits : 32 ≤ 255 * 32 := by decide

def LayerDraw.derivedKey (draw : LayerDraw) : Vector UInt8 32 :=
  hkdfExpand primitives draw.key.toList .export 32 keyLength_fits

/-- The loop over the selected peers.  The index operation on the addresses
aborts where there are none. -/
def generateLayers (draws : Nat → LayerDraw) :
    Nat → List CachedPeerInfo → Outcome DhtError (List (OnionLayer × SocketAddr))
  | _, [] => .returned []
  | index, peer :: peers =>
      match peer.addresses with
      | [] => .panicked
      | address :: _ =>
          match multiaddrToSocketAddr address with
          | .error error => .failed error
          | .ok peerAddr =>
              match generateLayers draws (index + 1) peers with
              | .failed error => .failed error
              | .panicked => .panicked
              | .returned layers => .returned
                  (({ key := (draws index).derivedKey primitives
                      nonce := (draws index).nonce
                      peerId := peer.peerId }, peerAddr) :: layers)

/-- `OnionPath` with the addresses of its layers. -/
structure BuiltPath where
  layers : List (OnionLayer × SocketAddr)
  pathId : UInt64
  destination : String
  deriving DecidableEq

def BuiltPath.onion (path : BuiltPath) : OnionPath where
  layers := path.layers.map Prod.fst

/-- `build_onion_path`, given what `discover_peers` returns and what the random
number generator gives. -/
def buildOnionPath (parse : String → Option Multiaddr)
    (discovered : Except DhtError (List ProtoPeerInfo))
    (draws : Nat → LayerDraw) (pathId : UInt64) (destination : String)
    (hopCount : Nat) : Outcome DhtError BuiltPath :=
  match discovered with
  | .error error => .failed error
  | .ok protoPeers =>
      let candidates := protoPeers.filterMap (candidate parse)
      if candidates.length < hopCount then
        .failed (.insufficientPeers
          s!"Need {hopCount} peers but only found {candidates.length}")
      else
        match generateLayers primitives draws 0
            (selectDiversePathPeers candidates hopCount) with
        | .failed error => .failed error
        | .panicked => .panicked
        | .returned layers => .returned { layers, pathId, destination }

variable {primitives} {draws : Nat → LayerDraw}

/-- Without locations no candidate is passed over. -/
theorem length_selectPeers {available : List CachedPeerInfo}
    (nowhere : ∀ peer ∈ available, peer.location = none) (count : Nat) :
    (selectPeers count available).length = min count available.length := by
  induction count generalizing available with
  | zero => simp [selectPeers]
  | succ count ih =>
      cases available with
      | nil => rfl
      | cons best available =>
          have kept : retainDistant best available = available := by
            rw [retainDistant, nowhere best List.mem_cons_self]
          have rest := ih fun peer member =>
            nowhere peer (List.mem_cons_of_mem _ member)
          rw [selectPeers, kept, List.length_cons, rest, List.length_cons]
          omega

theorem length_selectDiversePathPeers {parse : String → Option Multiaddr}
    {protoPeers : List ProtoPeerInfo} {hopCount : Nat}
    (enough : hopCount ≤ (protoPeers.filterMap (candidate parse)).length) :
    (selectDiversePathPeers (protoPeers.filterMap (candidate parse))
      hopCount).length = hopCount := by
  have nowhere : ∀ peer ∈ protoPeers.filterMap (candidate parse),
      peer.location = none := by
    intro peer member
    obtain ⟨protoPeer, -, made⟩ := List.mem_filterMap.mp member
    obtain ⟨address, -, rfl⟩ := Option.map_eq_some_iff.mp made
    rfl
  rw [selectDiversePathPeers, length_selectPeers, List.length_mergeSort]
  · exact min_eq_left enough
  · intro peer member
    exact nowhere peer (List.mem_mergeSort.mp member)

/-- The keys and nonces of the layers are drawn one after the other. -/
theorem drawn_of_generateLayers {index : Nat} {peers : List CachedPeerInfo}
    {layers : List (OnionLayer × SocketAddr)}
    (generated : generateLayers primitives draws index peers =
      .returned layers) :
    layers.length = peers.length ∧
      ∀ offset layer, layers[offset]? = some layer →
        layer.1.key = (draws (index + offset)).derivedKey primitives ∧
        layer.1.nonce = (draws (index + offset)).nonce := by
  induction peers generalizing index layers with
  | nil =>
      cases generated
      exact ⟨rfl, by simp⟩
  | cons peer peers ih =>
      rw [generateLayers] at generated
      split at generated
      · cases generated
      · split at generated
        · cases generated
        · split at generated
          · cases generated
          · cases generated
          · next address _ _ peerAddr _ _ rest generatedRest =>
              cases generated
              obtain ⟨count, drawn⟩ := ih generatedRest
              refine ⟨congrArg Nat.succ count, ?_⟩
              intro offset layer found
              cases offset with
              | zero =>
                  cases found
                  exact ⟨rfl, rfl⟩
              | succ offset =>
                  rw [← Nat.add_assoc, Nat.add_right_comm]
                  exact drawn offset layer found

/-- A path has a layer for every hop, with the key and the nonce that were drawn
for it. -/
theorem buildOnionPath_returned {parse : String → Option Multiaddr}
    {discovered : Except DhtError (List ProtoPeerInfo)} {pathId : UInt64}
    {destination : String} {hopCount : Nat} {path : BuiltPath}
    (built : buildOnionPath primitives parse discovered draws pathId
      destination hopCount = .returned path) :
    path.onion.layers.length = hopCount ∧
      ∀ index layer, path.onion.layers[index]? = some layer →
        layer.key = (draws index).derivedKey primitives ∧
        layer.nonce = (draws index).nonce := by
  unfold buildOnionPath at built
  split at built
  · cases built
  · simp only at built
    split at built
    · cases built
    · next protoPeers enough =>
        split at built
        · cases built
        · cases built
        · next layers generated =>
            cases built
            obtain ⟨count, drawn⟩ := drawn_of_generateLayers generated
            refine ⟨?_, ?_⟩
            · rw [BuiltPath.onion, List.length_map, count]
              exact length_selectDiversePathPeers (Nat.le_of_not_lt enough)
            · intro index layer found
              simp only [BuiltPath.onion, List.getElem?_map,
                Option.map_eq_some_iff] at found
              obtain ⟨entry, atIndex, rfl⟩ := found
              have exact := drawn index entry atIndex
              rwa [Nat.zero_add] at exact

end NyxNet.Paths
