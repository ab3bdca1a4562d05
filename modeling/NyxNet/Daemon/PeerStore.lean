import NyxNet.Daemon.PeerDiscovery
import NyxNet.Lib.Word
import Mathlib.Data.List.Dedup

/-!
# Peers across a restart

The two conversions of `nyx-daemon/src/path_builder.rs` between a cached peer
and the form in which it is stored.  The cache keeps the instant of the last
contact, which means nothing to the next process, and the file keeps the age
that the peer had when it was saved.
-/

namespace NyxNet.Paths

open Dht

/-- `CachedPeerInfo` with the time of the last contact.  A set is the list of
its elements. -/
structure SeenPeerInfo extends CachedPeerInfo where
  lastSeen : Reading
  capabilities_nodup : capabilities.Nodup

structure SerializablePeerInfo where
  peerId : String
  addresses : List String
  capabilities : List String
  region : Option String
  location : Option (Float × Float)
  latencyMs : Option Float
  reliabilityScore : Float
  bandwidthMbps : Option Float
  lastSeenTimestamp : UInt64
  responseTimeMs : Option Float

namespace SerializablePeerInfo

/-- `SerializablePeerInfo::from`. -/
def ofPeer (peer : SeenPeerInfo) (now : Reading) : SerializablePeerInfo where
  peerId := peer.peerId
  addresses := peer.addresses.map Multiaddr.text
  capabilities := peer.capabilities
  region := peer.region
  location := peer.location.map fun point => (point.x, point.y)
  latencyMs := peer.latencyMs
  reliabilityScore := peer.reliabilityScore
  bandwidthMbps := peer.bandwidthMbps
  lastSeenTimestamp := UInt64.ofNat (peer.lastSeen.elapsed now).secs
  responseTimeMs := peer.responseTimeMs

end SerializablePeerInfo

namespace SeenPeerInfo

/-- The peer with its parsed addresses and the time of the last contact, if the
platform can keep that. -/
def restored (serializable : SerializablePeerInfo)
    (addresses : List Multiaddr) :
    Option Reading → Outcome String SeenPeerInfo
  | none => .panicked
  | some lastSeen =>
      .returned {
        peerId := serializable.peerId
        addresses := addresses
        capabilities := serializable.capabilities.dedup
        region := serializable.region
        location := serializable.location.map fun (x, y) => ⟨x, y⟩
        latencyMs := serializable.latencyMs
        reliabilityScore := serializable.reliabilityScore
        bandwidthMbps := serializable.bandwidthMbps
        responseTimeMs := serializable.responseTimeMs
        lastSeen := lastSeen
        capabilities_nodup := List.nodup_dedup _ }

/-- `CachedPeerInfo::try_from`, given the parser of the `multiaddr` crate and
the reading of the clock.  The parser leaves the text of its error. -/
def tryFrom (parse : String → Except String Multiaddr) (now : Reading)
    (serializable : SerializablePeerInfo) : Outcome String SeenPeerInfo :=
  match serializable.addresses.mapM parse with
  | .error e => .failed s!"Invalid multiaddr in serialized peer: {e}"
  | .ok addresses =>
      restored serializable addresses
        (now.checkedSub (Duration.fromSecs serializable.lastSeenTimestamp))

/-- The peer that is loaded is the one that was saved, older by the time in
between. -/
structure KeepsAge (peer : SeenPeerInfo) (savedAt loadedAt : Reading)
    (downTime : Duration) (loaded : SeenPeerInfo) : Prop where
  others : loaded.toCachedPeerInfo = peer.toCachedPeerInfo
  age : (loaded.lastSeen.elapsed loadedAt).secs =
    ((peer.lastSeen.elapsed savedAt).asNanos + downTime.asNanos) / 1000000000
  stale : ∀ maxAge : Nat, maxAge < (peer.lastSeen.elapsed savedAt).secs →
    maxAge < (loaded.lastSeen.elapsed loadedAt).secs

variable {parse : String → Except String Multiaddr} {peer : SeenPeerInfo}

theorem mapM_parse {addresses : List Multiaddr}
    (parses : ∀ address ∈ addresses, parse address.text = .ok address) :
    (addresses.map Multiaddr.text).mapM parse = .ok addresses := by
  induction addresses with
  | nil => rfl
  | cons address addresses ih =>
      rw [List.map_cons, List.mapM_cons, parses address List.mem_cons_self,
        ih fun other member =>
          parses other (List.mem_cons_of_mem address member)]
      rfl

theorem restored_ofPeer (savedAt lastSeen : Reading) :
    restored (.ofPeer peer savedAt) peer.addresses (some lastSeen) =
      .returned { peer with lastSeen := lastSeen } := by
  have sameLocation : (peer.location.map fun point =>
      (point.x, point.y)).map (fun (x, y) => (⟨x, y⟩ : Point)) =
        peer.location := by
    rw [Option.map_map]
    exact Option.map_id'
  unfold restored SerializablePeerInfo.ofPeer
  simp only [sameLocation, List.Nodup.dedup peer.capabilities_nodup]

/-- The whole seconds of the age are taken off the clock of the new process. -/
theorem tryFrom_ofPeer
    (parses : ∀ address ∈ peer.addresses, parse address.text = .ok address)
    (savedAt loadedAt : Reading) :
    tryFrom parse loadedAt (.ofPeer peer savedAt) =
      restored (.ofPeer peer savedAt) peer.addresses
        (loadedAt.checkedSub (Duration.fromSecs
          (SerializablePeerInfo.ofPeer peer savedAt).lastSeenTimestamp)) := by
  have parsed : (SerializablePeerInfo.ofPeer peer savedAt).addresses.mapM parse =
      .ok peer.addresses := mapM_parse parses
  rw [tryFrom, parsed]

/-- The age of the loaded peer is the one that was saved, in whole seconds. -/
theorem keepsAge_iff {savedAt loadedAt lastSeen : Reading}
    {downTime : Duration}
    (age : (lastSeen.elapsed loadedAt).secs =
      (peer.lastSeen.elapsed savedAt).secs) :
    KeepsAge peer savedAt loadedAt downTime { peer with lastSeen := lastSeen } ↔
      (peer.lastSeen.elapsed savedAt).nanos + downTime.asNanos <
        1000000000 := by
  have whole : (peer.lastSeen.elapsed savedAt).asNanos =
      (peer.lastSeen.elapsed savedAt).secs * 1000000000 +
        (peer.lastSeen.elapsed savedAt).nanos := rfl
  have sameAge : (peer.lastSeen.elapsed savedAt).secs =
      ((peer.lastSeen.elapsed savedAt).asNanos + downTime.asNanos) /
        1000000000 ↔
      (peer.lastSeen.elapsed savedAt).nanos + downTime.asNanos <
        1000000000 := by
    rw [whole]
    omega
  rw [← sameAge, ← age]
  constructor
  · intro keeps
    exact keeps.age
  · intro same
    refine ⟨rfl, same, ?_⟩
    intro maxAge older
    exact older.trans_eq age.symm

/-- A peer keeps its age exactly when less than a second has gone by since its
age was a whole number of them, and the clock of the new process has that many
seconds behind it. -/
theorem tryFrom_keepsAge_iff (parse : String → Except String Multiaddr)
    (peer : SeenPeerInfo) (savedAt loadedAt : Reading) (downTime : Duration)
    (parses : ∀ address ∈ peer.addresses,
      parse address.text = .ok address) :
    (∃ loaded, tryFrom parse loadedAt (.ofPeer peer savedAt) =
        .returned loaded ∧
      KeepsAge peer savedAt loadedAt downTime loaded) ↔
      (peer.lastSeen.elapsed savedAt).nanos + downTime.asNanos < 1000000000 ∧
        (peer.lastSeen.elapsed savedAt).secs * 1000000000 ≤
          loadedAt.nanos := by
  have stored : (SerializablePeerInfo.ofPeer peer
      savedAt).lastSeenTimestamp.toNat = (peer.lastSeen.elapsed savedAt).secs :=
    UInt64.toNat_ofNat_of_lt' (peer.lastSeen.elapsed savedAt).secs_lt
  rw [tryFrom_ofPeer parses]
  generalize (SerializablePeerInfo.ofPeer peer savedAt).lastSeenTimestamp =
    timestamp at stored
  have nanos : (Duration.fromSecs timestamp).asNanos =
      (peer.lastSeen.elapsed savedAt).secs * 1000000000 := by
    rw [← stored]
    exact Nat.add_zero _
  cases subtracted : loadedAt.checkedSub (Duration.fromSecs timestamp) with
  | none =>
      have early := Reading.checkedSub_eq_none_iff.mp subtracted
      rw [nanos] at early
      refine iff_of_false ?_ ?_
      · intro kept
        obtain ⟨loaded, impossible, -⟩ := kept
        cases impossible
      · intro fits
        exact absurd fits.2 (Nat.not_le_of_lt early)
  | some lastSeen =>
      have age : (lastSeen.elapsed loadedAt).secs =
          (peer.lastSeen.elapsed savedAt).secs := by
        rw [Reading.elapsed_of_checkedSub subtracted]
        exact stored
      have late : (peer.lastSeen.elapsed savedAt).secs * 1000000000 ≤
          loadedAt.nanos := by
        rw [← nanos]
        by_contra early
        have failed := Reading.checkedSub_eq_none_iff.mpr
          (Nat.lt_of_not_le early)
        rw [failed] at subtracted
        cases subtracted
      rw [restored_ofPeer, and_iff_left late, ← keepsAge_iff age]
      constructor
      · intro kept
        obtain ⟨loaded, same, keeps⟩ := kept
        cases same
        exact keeps
      · intro keeps
        exact ⟨_, rfl, keeps⟩

/-- A peer at `/ip4/10.0.0.1/tcp/443`, seen five seconds after the start. -/
def sampleSeen : SeenPeerInfo where
  peerId := "peer_1"
  addresses := [⟨"/ip4/10.0.0.1/tcp/443"⟩]
  capabilities := ["relay"]
  region := some "eu"
  location := none
  latencyMs := some 20.0
  reliabilityScore := 0.8
  bandwidthMbps := some 100.0
  responseTimeMs := none
  lastSeen := ⟨5000000000, by decide⟩
  capabilities_nodup := by decide

def parseOrError (text : String) : Except String Multiaddr :=
  (sampleParse text).elim (.error "invalid multiaddr") .ok

theorem sampleSeen_parses :
    ∀ address ∈ sampleSeen.addresses,
      parseOrError address.text = .ok address := by
  intro address member
  cases List.mem_singleton.mp member
  rfl

/-- Saved after a minute, and loaded an hour after the start of the machine with
a down-time of 0.4 seconds. -/
theorem sampleSeen_keepsAge :
    ∃ loaded, tryFrom parseOrError ⟨3600000000000, by decide⟩
        (.ofPeer sampleSeen ⟨65000000000, by decide⟩) = .returned loaded ∧
      KeepsAge sampleSeen ⟨65000000000, by decide⟩ ⟨3600000000000, by decide⟩
        (Duration.fromMillis 400) loaded :=
  (tryFrom_keepsAge_iff parseOrError sampleSeen ⟨65000000000, by decide⟩
    ⟨3600000000000, by decide⟩ (Duration.fromMillis 400)
    sampleSeen_parses).mpr (by decide)

/-- After an hour the peer is still a minute old. -/
theorem sampleSeen_losesAge :
    ¬ ∀ (peer : SeenPeerInfo) (savedAt loadedAt : Reading)
        (downTime : Duration),
      (∀ address ∈ peer.addresses, parseOrError address.text = .ok address) →
        ∃ loaded, tryFrom parseOrError loadedAt (.ofPeer peer savedAt) =
            .returned loaded ∧
          KeepsAge peer savedAt loadedAt downTime loaded := by
  intro keeps
  obtain ⟨loaded, returned, aged⟩ := keeps sampleSeen
    ⟨65000000000, by decide⟩ ⟨3600000000000, by decide⟩
    (Duration.fromSecs 3600) sampleSeen_parses
  have subtracted : Reading.checkedSub ⟨3600000000000, by decide⟩
      (Duration.fromSecs (SerializablePeerInfo.ofPeer sampleSeen
        ⟨65000000000, by decide⟩).lastSeenTimestamp) =
        some ⟨3540000000000, by decide⟩ := by
    decide
  rw [tryFrom_ofPeer sampleSeen_parses, subtracted, restored_ofPeer] at returned
  cases returned
  exact absurd aged.age (by decide)

end SeenPeerInfo

end NyxNet.Paths
