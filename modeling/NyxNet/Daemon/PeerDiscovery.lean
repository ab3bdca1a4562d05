import NyxNet.Daemon.RoutingPersistence
import NyxNet.Lib.AddressText

/-!
# Addresses of discovered peers

The conversions that the address of a peer goes through in
`nyx-daemon/src/path_builder.rs` between a node of the hash table and a
candidate for a path.  A node carries a multiaddress; the check of addresses
wants `host:port`; the cache and the path builder parse a multiaddress again.
-/

namespace NyxNet.Paths

open Dht DebugFormat

/-- The variants of `DhtError` that these functions return. -/
inductive DhtError where
  | invalidMessage (message : String)
  | invalidPeer (message : String)
  | invalidAddress (message : String)
  | insufficientPeers (message : String)
  deriving DecidableEq, Repr

inductive DiscoveryCriteria where
  | byRegion (region : String)
  | byCapability (capability : String)
  | byLatency (maxLatency : Float)
  | byBandwidth (minBandwidth : Float)
  | random (count : Nat)
  | highPerformance
  | geographicDiversity
  | reliability
  | all

structure Timestamp where
  seconds : Int64
  nanos : Int32

/-- `proto::PeerInfo`. -/
structure ProtoPeerInfo where
  nodeId : String
  address : String
  latencyMs : Float
  bandwidthMbps : Float
  status : String
  lastSeen : Option Timestamp
  connectionCount : UInt32
  region : String

structure Point where
  x : Float
  y : Float

/-- The time of the last contact is left out; its age enters where it is
read. -/
structure CachedPeerInfo where
  peerId : String
  addresses : List Multiaddr
  capabilities : List String
  region : Option String
  location : Option Point
  latencyMs : Option Float
  reliabilityScore : Float
  bandwidthMbps : Option Float
  responseTimeMs : Option Float

/-- `validate_and_normalize_address`. -/
def validateAndNormalizeAddress (address : String) : Except DhtError String :=
  let trimmed := Str.trim address.toList
  if trimmed = [] then
    .error (.invalidMessage "Address cannot be empty")
  else
    match SocketAddr.fromStr (String.ofList trimmed) with
    | some socketAddr => .ok (String.ofList socketAddr.toText)
    | none =>
        match Str.rsplitOnce ':' trimmed with
        | none => .error (.invalidMessage "Address must include port number")
        | some (host, portStr) =>
            match Str.parseUnsigned 65536 portStr with
            | .error _ => .error (.invalidMessage "Invalid port number")
            | .ok port =>
                if 253 < (String.ofList host).utf8ByteSize ∨
                    Str.contains host "..".toList ∨ host.head? = some '-' ∨
                    host.getLast? = some '-' then
                  .error (.invalidMessage "Invalid hostname format")
                else
                  .ok (String.ofList (host ++ ':' :: decimal port))

/-- `estimate_peer_bandwidth_from_proto_addr`. -/
def estimatePeerBandwidth (address : String) : Float :=
  let holds part := Str.contains address.toList (String.toList part)
  if holds "127.0.0.1" || holds "localhost" then 1000
  else if holds "10." || holds "192.168." || holds "172." then 500
  else 100

/-- `calculate_peer_reliability_from_addr`. -/
def calculatePeerReliability (address : String) : Float :=
  let holds part := Str.contains address.toList (String.toList part)
  if holds "127.0.0.1" || holds "localhost" then 0.95
  else if holds "10." || holds "192.168." then 0.85
  else 0.75

/-- The region of an IPv4 address by its first two octets. -/
def ipv4Region (ip : Vector UInt8 4) : String :=
  let first := (ip.get 0).toNat
  let second := (ip.get 1).toNat
  if first = 10 ∨ (first = 172 ∧ 16 ≤ second ∧ second ≤ 31) ∨
      (first = 192 ∧ second = 168) ∨ first = 127 then "local"
  else if 1 ≤ first ∧ first ≤ 63 then "americas"
  else if 64 ≤ first ∧ first ≤ 127 then "europe"
  else if 128 ≤ first ∧ first ≤ 191 then "asia-pacific"
  else if 192 ≤ first ∧ first ≤ 223 then "global"
  else "unknown"

/-- The region of a host by its top-level domain. -/
def hostRegion (host : Text) : String :=
  if ".local".toList <:+ host ∨ Str.contains host "localhost".toList then
    "local"
  else
    match Str.rsplitOnce '.' host with
    | none => "unknown"
    | some (_, tld) =>
        if String.ofList tld ∈ ["us", "com"] then "americas"
        else if String.ofList tld ∈ ["eu", "de", "fr", "uk"] then "europe"
        else if String.ofList tld ∈ ["jp", "cn", "au"] then "asia-pacific"
        else "global"

/-- `determine_peer_region`. -/
def determinePeerRegion (address : String) : String :=
  let ipStr := match Str.rsplitOnce ':' address.toList with
    | some (before, _) => before
    | none => address.toList
  match SocketAddr.parseIpv4 ipStr, SocketAddr.parseIpv6 ipStr with
  | some ip, _ => ipv4Region ip
  | none, some _ => "ipv6-global"
  | none, none => hostRegion ipStr

/-- `extract_ip_from_multiaddr`. -/
def extractIpFromMultiaddr (addr : Multiaddr) : Option Text :=
  let segmentAfter (tag : String) : Option Text :=
    (Str.splitOnce tag.toList addr.text.toList).map fun (_, rest) =>
      rest.takeWhile (· ≠ '/')
  (segmentAfter "/ip4/").or (segmentAfter "/ip6/")

/-- `estimate_peer_latency`, given how many milliseconds it took to connect to
the IP address, unless that failed. -/
def estimatePeerLatency (addr : Multiaddr) (connection : Option Float) :
    Option Float :=
  (extractIpFromMultiaddr addr).map fun ipStr =>
    if (SocketAddr.parseIpv4 ipStr).isSome || (SocketAddr.parseIpv6 ipStr).isSome
    then
      match connection with
      | some latency => latency
      | none =>
          let holds part := Str.contains addr.text.toList (String.toList part)
          if holds "127.0.0.1" || holds "localhost" then 1 else 100
    else
      50

/-- `convert_dht_node_to_peer_info`, given the estimate of the latency and the
time. -/
def convertDhtNodeToPeerInfo (node : Dht.PeerInfo)
    (criteria : DiscoveryCriteria) (estimatedLatency : Option Float)
    (now : Int64) : Except DhtError ProtoPeerInfo :=
  match validateAndNormalizeAddress node.address.text with
  | .error error => .error error
  | .ok normalizedAddr =>
      let latency := estimatedLatency.getD 999
      let bandwidth := estimatePeerBandwidth normalizedAddr
      let reliability := calculatePeerReliability normalizedAddr
      let peerInfo : ProtoPeerInfo :=
        { nodeId := node.peerId
          address := normalizedAddr
          latencyMs := latency
          bandwidthMbps := bandwidth
          status := "discovered"
          lastSeen := some ⟨now, 0⟩
          connectionCount := 1
          region := determinePeerRegion node.address.text }
      match criteria with
      | .highPerformance =>
          if latency > 200 || bandwidth < 50 || reliability < 0.7 then
            .error (.invalidPeer "Does not meet high performance criteria")
          else
            .ok peerInfo
      | .reliability =>
          if reliability < 0.8 then
            .error (.invalidPeer "Does not meet reliability criteria")
          else
            .ok peerInfo
      | _ => .ok peerInfo

/-- The least recently used peer of the cache comes last. -/
abbrev PeerCache : Type := List (String × CachedPeerInfo)

def PeerCache.put (cache : PeerCache) (key : String) (peer : CachedPeerInfo) :
    PeerCache :=
  ((key, peer) :: cache.filter fun entry => entry.1 ≠ key).take 1000

def PeerCache.find (cache : PeerCache) (key : String) :
    Option CachedPeerInfo :=
  (List.find? (fun entry => entry.1 = key) cache).map Prod.snd

variable (parse : String → Option Multiaddr)

/-- What `update_peer_cache` stores for a peer. -/
def cachedPeer (peer : ProtoPeerInfo) : CachedPeerInfo where
  peerId := peer.nodeId
  addresses := [(parse peer.address).getD ⟨"/ip4/127.0.0.1/tcp/0"⟩]
  capabilities := []
  region := some peer.region
  location := none
  latencyMs := some peer.latencyMs
  reliabilityScore := 0.8
  bandwidthMbps := some peer.bandwidthMbps
  responseTimeMs := some peer.latencyMs

/-- `parse` is the parser of the `multiaddr` crate. -/
def updatePeerCache (cache : PeerCache) (peers : List ProtoPeerInfo) :
    PeerCache :=
  peers.foldl (fun cache peer => cache.put peer.nodeId (cachedPeer parse peer))
    cache

/-- `convert_to_peer_info`, given how long ago the peer was seen. -/
def convertToPeerInfo (cachedPeer : CachedPeerInfo) (elapsedSecs : UInt64) :
    ProtoPeerInfo where
  nodeId := cachedPeer.peerId
  address := (cachedPeer.addresses.head?.map Multiaddr.text).getD "unknown"
  latencyMs := cachedPeer.latencyMs.getD 0
  bandwidthMbps := cachedPeer.bandwidthMbps.getD 0
  status := "connected"
  lastSeen := some ⟨elapsedSecs.toInt64, 0⟩
  connectionCount := 1
  region := cachedPeer.region.getD "unknown"

/-- The candidate that `build_onion_path` makes of a discovered peer. -/
def candidate (protoPeer : ProtoPeerInfo) : Option CachedPeerInfo :=
  (parse protoPeer.address).map fun address =>
    { peerId := protoPeer.nodeId
      addresses := [address]
      capabilities := []
      region := some protoPeer.region
      location := none
      latencyMs := some protoPeer.latencyMs
      reliabilityScore := 0.8
      bandwidthMbps := some protoPeer.bandwidthMbps
      responseTimeMs := none }

/-- `multiaddr_to_socket_addr`. -/
def multiaddrToSocketAddr (multiaddr : Multiaddr) :
    Except DhtError SocketAddr :=
  match multiaddr.text.toList.splitOn '/' with
  | _ :: protocol :: ipStr :: tcpProtocol :: portStr :: _ =>
      if tcpProtocol ≠ "tcp".toList then
        .error (.invalidAddress "Only TCP protocol supported")
      else
        let withPort (address : UInt16 → SocketAddr) :
            Except DhtError SocketAddr :=
          match Str.parseUnsigned 65536 portStr with
          | .ok port => .ok (address (UInt16.ofNat port))
          | .error _ => .error (.invalidAddress
              s!"Invalid port: {String.ofList portStr}")
        if protocol = "ip4".toList then
          match SocketAddr.parseIpv4 ipStr with
          | some ip => withPort (.v4 ip)
          | none => .error (.invalidAddress
              s!"Invalid IPv4 address: {String.ofList ipStr}")
        else if protocol = "ip6".toList then
          match SocketAddr.parseIpv6 ipStr with
          | some ip => withPort (fun port => .v6 ip port 0)
          | none => .error (.invalidAddress
              s!"Invalid IPv6 address: {String.ofList ipStr}")
        else
          .error (.invalidAddress
            s!"Unsupported protocol: {String.ofList protocol}")
  | _ => .error (.invalidAddress
      s!"Invalid multiaddr format: {multiaddr.text}")

/-- An address over IPv4 or IPv6 and TCP. -/
inductive TcpAddress where
  | ip4 (ip : Vector UInt8 4) (port : UInt16)
  | ip6 (ip : Vector UInt16 8) (port : UInt16)

/-- The address of a peer that is reached over IPv6 and TCP. -/
def ip6Tcp (ip : Vector UInt16 8) (port : UInt16) : Multiaddr :=
  ⟨"/ip6/" ++ String.ofList (SocketAddr.ipv6Text ip.toList) ++ "/tcp/" ++
    toString port⟩

namespace TcpAddress

def socketAddr : TcpAddress → SocketAddr
  | .ip4 ip port => .v4 ip port
  | .ip6 ip port => .v6 ip.toList port 0

/-- The address as the `multiaddr` crate writes it. -/
def multiaddr : TcpAddress → Multiaddr
  | .ip4 ip port => RoutingTable.ip4Tcp ip port
  | .ip6 ip port => ip6Tcp ip port

/-- The refusal of an address: an IPv4 one has no colon, and the last colon of
an IPv6 one is not in front of the port. -/
def refusal : TcpAddress → DhtError
  | .ip4 _ _ => .invalidMessage "Address must include port number"
  | .ip6 _ _ => .invalidMessage "Invalid port number"

/-- The text as far as the IP address. -/
def host : TcpAddress → Text
  | .ip4 ip _ => "/ip4/".toList ++ SocketAddr.ipv4Text ip
  | .ip6 ip _ => "/ip6/".toList ++ SocketAddr.ipv6Text ip.toList

def port : TcpAddress → UInt16
  | .ip4 _ port => port
  | .ip6 _ port => port

theorem host_ip4 (ip : Vector UInt8 4) (port : UInt16) :
    host (.ip4 ip port) = "/ip4/".toList ++ SocketAddr.ipv4Text ip := rfl

theorem host_ip6 (ip : Vector UInt16 8) (port : UInt16) :
    host (.ip6 ip port) = "/ip6/".toList ++ SocketAddr.ipv6Text ip.toList :=
  rfl

theorem toList_multiaddr (address : TcpAddress) :
    address.multiaddr.text.toList =
      address.host ++ ("/tcp/".toList ++ decimal address.port.toNat) := by
  have portText : ∀ port : UInt16,
      (toString port).toList = decimal port.toNat :=
    fun _ => Nat.toList_repr
  cases address with
  | ip4 ip port =>
      have octetText : ∀ octet : UInt8,
          (toString octet).toList = decimal octet.toNat :=
        fun _ => Nat.toList_repr
      have ipText : (String.intercalate "." (ip.toList.map toString)).toList =
          SocketAddr.ipv4Text ip := by
        have point : ".".toList = ['.'] := by simp
        have texts : String.toList ∘ toString =
            fun octet : UInt8 => decimal octet.toNat := funext octetText
        rw [String.toList_intercalate, List.map_map, point, texts,
          SocketAddr.ipv4Text]
      simp only [multiaddr, RoutingTable.ip4Tcp, host_ip4, TcpAddress.port,
        String.toList_append, ipText, portText, List.append_assoc]
  | ip6 ip port =>
      simp only [multiaddr, ip6Tcp, host_ip6, TcpAddress.port,
        String.toList_append, String.toList_ofList, portText,
        List.append_assoc]

theorem head_host (address : TcpAddress) :
    ∃ rest, address.host = '/' :: rest := by
  cases address with
  | ip4 ip port => exact ⟨_, by simp [host_ip4]; rfl⟩
  | ip6 ip port => exact ⟨_, by simp [host_ip6]; rfl⟩

theorem port_clean (address : TcpAddress) :
    ':' ∉ "/tcp/".toList ++ decimal address.port.toNat :=
  List.not_mem_append (by decide) (colon_notMem_decimal _)

theorem trim_multiaddr (address : TcpAddress) :
    Str.trim address.multiaddr.text.toList = address.multiaddr.text.toList := by
  obtain ⟨rest, starts⟩ := address.head_host
  rw [toList_multiaddr]
  apply Str.trim_eq_self
  · intro letter first
    rw [starts] at first
    cases first
    decide
  · intro letter last
    have member : letter ∈ decimal address.port.toNat := by
      apply List.mem_of_getLast?
      rw [← List.append_assoc, List.getLast?_append_of_ne_nil _
        (decimal_ne_nil _)] at last
      exact last
    have digit := isDigit_of_mem_decimal member
    rw [Char.isDigit_iff_toNat] at digit
    have low : 48 ≤ letter.toNat := digit.1
    have high : letter.toNat ≤ 57 := digit.2
    simp only [Str.isWhitespace]
    simp
    omega

end TcpAddress

/-- No text of an address over TCP passes the check. -/
theorem validateAndNormalizeAddress_multiaddr (address : TcpAddress) :
    validateAndNormalizeAddress address.multiaddr.text =
      .error address.refusal := by
  have text := address.toList_multiaddr
  obtain ⟨rest, starts⟩ := address.head_host
  have first : address.multiaddr.text.toList =
      '/' :: (rest ++ ("/tcp/".toList ++ decimal address.port.toNat)) := by
    rw [text, starts]
    rfl
  have unread : SocketAddr.fromStr
      (String.ofList address.multiaddr.text.toList) = none := by
    rw [String.ofList_toList]
    exact SocketAddr.fromStr_eq_none first (by decide) (by decide)
  have filled : address.multiaddr.text.toList ≠ [] := by
    rw [first]
    exact List.cons_ne_nil _ _
  simp only [validateAndNormalizeAddress, address.trim_multiaddr, unread,
    if_neg filled]
  cases address with
  | ip4 ip port =>
      have unmarked : Str.rsplitOnce ':'
          (TcpAddress.multiaddr (.ip4 ip port)).text.toList = none := by
        apply Str.rsplitOnce_of_notMem
        rw [text]
        apply List.not_mem_append
        · simp [TcpAddress.host_ip4, SocketAddr.colon_notMem_ipv4Text]
        · exact TcpAddress.port_clean _
      rw [unmarked]
      rfl
  | ip6 ip port =>
      have marked : ':' ∈ TcpAddress.host (.ip6 ip port) := by
        simp [TcpAddress.host_ip6, SocketAddr.colon_mem_ipv6Text]
      obtain ⟨before, after, split⟩ : ∃ before after, Str.rsplitOnce ':'
          (TcpAddress.multiaddr (.ip6 ip port)).text.toList =
            some (before, after) := by
        rw [text]
        obtain ⟨before, after, -, -, split⟩ :=
          Str.exists_rsplitOnce (List.mem_append_left
            ("/tcp/".toList ++ decimal
              (TcpAddress.port (.ip6 ip port)).toNat) marked)
        exact ⟨before, after, split⟩
      rw [split]
      rw [text] at split
      have tail := Str.suffix_of_rsplitOnce (TcpAddress.port_clean _) split
      have slash : '/' ∈ after :=
        tail.subset (List.mem_append_left _ (by decide))
      simp only
      cases parsed : Str.parseUnsigned 65536 after with
      | error kind => rfl
      | ok port =>
          exact absurd parsed
            (Str.parseUnsigned_ne_ok slash (by decide) (by decide) port)

/-- The path builder makes a candidate of the peer that leads to the address. -/
def LeadsTo (peer : ProtoPeerInfo) (socketAddr : SocketAddr) : Prop :=
  ∃ found multiaddr, candidate parse peer = some found ∧
    found.addresses.head? = some multiaddr ∧
    multiaddrToSocketAddr multiaddr = .ok socketAddr

/-- The address of the node reaches the path builder, directly and by way of
the cache. -/
def Survives (node : Dht.PeerInfo) (criteria : DiscoveryCriteria)
    (estimatedLatency : Option Float) (now : Int64) (cache : PeerCache)
    (elapsedSecs : UInt64) (socketAddr : SocketAddr) : Prop :=
  ∃ peer cached,
    convertDhtNodeToPeerInfo node criteria estimatedLatency now = .ok peer ∧
    LeadsTo parse peer socketAddr ∧
    (updatePeerCache parse cache [peer]).find peer.nodeId = some cached ∧
    LeadsTo parse (convertToPeerInfo cached elapsedSecs) socketAddr

theorem convertDhtNodeToPeerInfo_multiaddr (node : Dht.PeerInfo)
    (address : TcpAddress) (criteria : DiscoveryCriteria)
    (estimatedLatency : Option Float) (now : Int64) :
    convertDhtNodeToPeerInfo { node with address := address.multiaddr }
      criteria estimatedLatency now = .error address.refusal := by
  unfold convertDhtNodeToPeerInfo
  rw [validateAndNormalizeAddress_multiaddr]

theorem tcp_address_never_survives (parse : String → Option Multiaddr)
    (node : Dht.PeerInfo) (address : TcpAddress) (criteria : DiscoveryCriteria)
    (estimatedLatency : Option Float) (now : Int64) (cache : PeerCache)
    (elapsedSecs : UInt64) :
    ¬ Survives parse { node with address := address.multiaddr } criteria
      estimatedLatency now cache elapsedSecs address.socketAddr := by
  intro survives
  obtain ⟨peer, cached, converted, -⟩ := survives
  rw [convertDhtNodeToPeerInfo_multiaddr] at converted
  cases converted

/-- A node at `/ip4/10.0.0.1/tcp/443`. -/
def sampleNode : Dht.PeerInfo where
  peerId := "peer_1"
  address := ⟨"/ip4/10.0.0.1/tcp/443"⟩
  publicKey := []
  lastSeen := SystemTime.unixEpoch
  avgResponseTime := Duration.fromMillis 20

/-- The parser of addresses, which knows this one and the fallback. -/
def sampleParse (text : String) : Option Multiaddr :=
  if text = "/ip4/10.0.0.1/tcp/443" ∨ text = "/ip4/127.0.0.1/tcp/0" then
    some ⟨text⟩
  else
    none

theorem sampleNode_lost :
    sampleParse "/ip4/10.0.0.1/tcp/443" = some sampleNode.address ∧
      multiaddrToSocketAddr sampleNode.address =
        .ok (.v4 #v[10, 0, 0, 1] 443) ∧
      ¬ Survives sampleParse sampleNode .all (some 100) 1700000000 [] 0
        (.v4 #v[10, 0, 0, 1] 443) := by
  have refused : validateAndNormalizeAddress sampleNode.address.text =
      .error (.invalidMessage "Address must include port number") := by
    decide +kernel
  refine ⟨by decide, by decide +kernel, ?_⟩
  intro survives
  obtain ⟨peer, cached, converted, -⟩ := survives
  unfold convertDhtNodeToPeerInfo at converted
  rw [refused] at converted
  cases converted

end NyxNet.Paths
