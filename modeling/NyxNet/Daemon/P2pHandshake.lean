import NyxNet.Crypto.Primitives
import NyxNet.Lib.SocketAddr
import NyxNet.Lib.Time

/-!
# P2P handshake

`secure_handshake` of `nyx-daemon/src/pure_rust_p2p.rs` and the record
`connect_to_peer` makes of its result.  A side is a function from the bytes it
reads off the connection to the bytes it writes and the way it ends; a session
ties two sides together, each reading what the other wrote.
-/

namespace NyxNet.Daemon

open NyxNet.Crypto (Primitives Point)

abbrev PeerId : Type := Vector UInt8 32

structure PeerInfo where
  peerId : PeerId
  address : SocketAddr
  publicKey : Point
  lastSeen : SystemTime
  capabilities : List String
  version : String
  deriving DecidableEq

inductive DhtOperation where
  | get
  | put (value : Bytes)
  | delete
  deriving DecidableEq, Repr

inductive P2PMessage where
  | handshake (peerInfo : PeerInfo) (challenge : Vector UInt8 32)
  | handshakeResponse (peerInfo : PeerInfo)
      (challengeResponse : Vector UInt8 32) (signature : Bytes)
  | heartbeat (timestamp : UInt64) (peerCount : UInt32)
  | dhtRequest (key : String) (operation : DhtOperation)
  | dhtResponse (key : String) (data : Option Bytes) (success : Bool)
  | peerDiscovery (knownPeers : List PeerInfo)
  | dataMessage (payload : Bytes) (messageType : String)
  deriving DecidableEq

/-- The crates a node is built on: key exchange and hashing, Ed25519 and the
bincode encoding of messages. -/
structure Platform extends Primitives where
  SigningKey : Type
  sign : SigningKey → Bytes → Vector UInt8 64
  serialize : P2PMessage → Option Bytes
  deserialize : Bytes → Option P2PMessage

/-- Decoding a handshake gives one with its challenge back.  The address in it
need not be the same: the flow and the scope of an IPv6 one are not encoded. -/
def Platform.RoundTrip (platform : Platform) : Prop :=
  ∀ peerInfo challenge bytes,
    platform.serialize (.handshake peerInfo challenge) = some bytes →
      ∃ received, platform.deserialize bytes =
        some (.handshake received challenge)

structure P2PConfig (platform : Platform) where
  listenAddress : SocketAddr
  enableEncryption : Bool
  signingKey : platform.SigningKey

structure PureRustP2P (platform : Platform) where
  localPeer : PeerInfo
  keyExchangeSecret : platform.Secret
  publicKey : Point
  config : P2PConfig platform

namespace PureRustP2P

variable {platform : Platform}

def generatePeerId (platform : Platform) (publicKey : Point) : PeerId :=
  platform.blake3 (publicKey.toList ++ Bytes.ofAscii "nyx-p2p-v1")

def new (config : P2PConfig platform) (secret : platform.Secret)
    (now : SystemTime) : PureRustP2P platform :=
  let publicKey := platform.publicKey secret
  { localPeer :=
      { peerId := generatePeerId platform publicKey
        address := config.listenAddress
        publicKey
        lastSeen := now
        capabilities := ["dht", "routing"]
        version := "1.0.0" }
    keyExchangeSecret := secret
    publicKey
    config }

inductive HandshakeError where
  | codec
  | text (message : String)
  deriving DecidableEq, Repr

/-- How a side ends; `waiting` is a read that has not got all its bytes. -/
inductive HandshakeEnd where
  | finished (publicKey : Point) (sessionKey : Bytes)
  | failed (error : HandshakeError)
  | waiting
  deriving DecidableEq, Repr

structure HandshakeRun where
  written : Bytes
  ending : HandshakeEnd
  deriving DecidableEq, Repr

/-- The half both roles share: answer the challenge and derive the key. -/
def respond (node : PureRustP2P platform) (written : Bytes)
    (challenge : Vector UInt8 32) : HandshakeRun :=
  let signature := platform.sign node.config.signingKey challenge.toList
  match platform.serialize
      (.handshakeResponse node.localPeer challenge signature.toList) with
  | none => { written, ending := .failed .codec }
  | some serialized =>
      let sharedSecret :=
        platform.diffieHellman node.keyExchangeSecret node.publicKey
      { written := written ++ Bytes.frame 4 serialized
        ending := .finished node.publicKey sharedSecret.toList }

/-- `drawn` is the challenge an initiator draws, `incoming` what the peer
writes. -/
def secureHandshake (node : PureRustP2P platform) (isInitiator : Bool)
    (drawn : Vector UInt8 32) (incoming : Bytes) : HandshakeRun :=
  if ¬ node.config.enableEncryption then
    { written := [], ending := .finished node.publicKey [] }
  else if isInitiator then
    match platform.serialize (.handshake node.localPeer drawn) with
    | none => { written := [], ending := .failed .codec }
    | some serialized => node.respond (Bytes.frame 4 serialized) drawn
  else
    match Bytes.readFrame 4 incoming with
    | none => { written := [], ending := .waiting }
    | some (message, _) =>
        match platform.deserialize message with
        | none => { written := [], ending := .failed .codec }
        | some (.handshake _ challenge) => node.respond [] challenge
        | some _ =>
            { written := []
              ending := .failed (.text "Invalid handshake message") }

/-- The part of a connected peer's record that depends on the handshake. -/
structure ConnectedPeer where
  info : PeerInfo
  sessionKey : Option Bytes
  peerPublicKey : Option Point
  isEncrypted : Bool
  deriving DecidableEq

/-- What `connect_to_peer` records once the handshake has finished. -/
def recordPeer (node : PureRustP2P platform) (address : SocketAddr)
    (now : SystemTime) (peerPublicKey : Point) (sessionKey : Bytes) :
    ConnectedPeer :=
  { info :=
      { peerId := generatePeerId platform peerPublicKey
        address
        publicKey := peerPublicKey
        lastSeen := now
        capabilities := ["dht", "routing"]
        version := "1.0.0" }
    sessionKey := some sessionKey
    peerPublicKey := some peerPublicKey
    isEncrypted := node.config.enableEncryption }

/-- Both sides of a connection; each reads exactly what the other wrote. -/
structure Session (initiator responder : PureRustP2P platform) where
  challenge : Vector UInt8 32
  initiatorRun : HandshakeRun
  responderRun : HandshakeRun
  initiatorReads : initiatorRun =
    initiator.secureHandshake true challenge responderRun.written
  responderReads : responderRun =
    responder.secureHandshake false challenge initiatorRun.written

/-- The record a side makes, if its handshake finished. -/
def recorded (node : PureRustP2P platform) (run : HandshakeRun)
    (address : SocketAddr) (now : SystemTime) : Option ConnectedPeer :=
  match run.ending with
  | .finished publicKey sessionKey =>
      some (node.recordPeer address now publicKey sessionKey)
  | .failed _ => none
  | .waiting => none

/-- The record names this node: its public key and its peer id. -/
def ConnectedPeer.Names (platform : Platform) (record : ConnectedPeer)
    (publicKey : Point) : Prop :=
  record.info.publicKey = publicKey ∧
    record.info.peerId = generatePeerId platform publicKey ∧
    record.peerPublicKey = some publicKey

/-- Both sides finish with one session key and record each other. -/
def Session.Agrees {initiator responder : PureRustP2P platform}
    (session : Session initiator responder) : Prop :=
  ∀ (initiatorAddress responderAddress : SocketAddr) (now : SystemTime),
    ∃ atInitiator atResponder,
      initiator.recorded session.initiatorRun responderAddress now =
          some atInitiator ∧
        responder.recorded session.responderRun initiatorAddress now =
          some atResponder ∧
        atInitiator.sessionKey = atResponder.sessionKey ∧
        atInitiator.Names platform responder.publicKey ∧
        atResponder.Names platform initiator.publicKey

/-- The messages of a session can be encoded, the first one in fewer than
2^32 bytes. -/
structure Encodes (initiator responder : PureRustP2P platform)
    (challenge : Vector UInt8 32) : Prop where
  handshake : ∃ bytes,
    platform.serialize (.handshake initiator.localPeer challenge) =
        some bytes ∧
      bytes.length < 2 ^ 32
  response : ∀ node ∈ [initiator, responder], ∃ bytes,
    platform.serialize (.handshakeResponse node.localPeer challenge
      (platform.sign node.config.signingKey challenge.toList).toList) =
        some bytes

/-- The session key a node ends with: the shared secret of its own two keys. -/
def ownSessionKey (node : PureRustP2P platform) : Bytes :=
  if node.config.enableEncryption then
    (platform.diffieHellman node.keyExchangeSecret node.publicKey).toList
  else []

theorem respond_ending {node : PureRustP2P platform} (written : Bytes)
    {challenge : Vector UInt8 32} {serialized : Bytes}
    (enabled : node.config.enableEncryption = true)
    (encoded : platform.serialize (.handshakeResponse node.localPeer challenge
      (platform.sign node.config.signingKey challenge.toList).toList) =
        some serialized) :
    node.respond written challenge =
      { written := written ++ Bytes.frame 4 serialized
        ending := .finished node.publicKey node.ownSessionKey } := by
  simp only [respond, encoded, ownSessionKey, enabled, if_true]

theorem secureHandshake_disabled {node : PureRustP2P platform}
    (disabled : node.config.enableEncryption = false) (isInitiator : Bool)
    (drawn : Vector UInt8 32) (incoming : Bytes) :
    node.secureHandshake isInitiator drawn incoming =
      { written := []
        ending := .finished node.publicKey node.ownSessionKey } := by
  simp [secureHandshake, ownSessionKey, disabled]

section Agreement

variable {initiator responder : PureRustP2P platform}
  (session : Session initiator responder)

/-- An enabled initiator writes its challenge first and finishes without
reading anything. -/
theorem Session.initiatorRun_enabled
    (encodes : Encodes initiator responder session.challenge)
    (enabled : initiator.config.enableEncryption = true) :
    ∃ message more, session.initiatorRun =
        { written := Bytes.frame 4 message ++ more
          ending := .finished initiator.publicKey
            initiator.ownSessionKey } ∧
      message.length < 2 ^ 32 ∧
      platform.serialize (.handshake initiator.localPeer session.challenge) =
        some message := by
  obtain ⟨message, encoded, small⟩ := encodes.handshake
  obtain ⟨answer, answered⟩ := encodes.response initiator List.mem_cons_self
  refine ⟨message, Bytes.frame 4 answer, ?_, small, encoded⟩
  rw [session.initiatorReads, secureHandshake]
  simp only [enabled, not_true, if_false, if_true, encoded]
  exact respond_ending _ enabled answered

theorem Session.initiator_ending
    (encodes : Encodes initiator responder session.challenge) :
    session.initiatorRun.ending =
      .finished initiator.publicKey initiator.ownSessionKey := by
  cases enabled : initiator.config.enableEncryption with
  | false =>
      rw [session.initiatorReads, secureHandshake_disabled enabled]
  | true =>
      obtain ⟨message, more, run, -, -⟩ :=
        session.initiatorRun_enabled encodes enabled
      rw [run]

theorem Session.responder_ending
    (encodes : Encodes initiator responder session.challenge)
    (roundTrip : platform.RoundTrip)
    (expected : responder.config.enableEncryption = true →
      initiator.config.enableEncryption = true) :
    session.responderRun.ending =
      .finished responder.publicKey responder.ownSessionKey := by
  cases enabled : responder.config.enableEncryption with
  | false =>
      rw [session.responderReads, secureHandshake_disabled enabled]
  | true =>
      obtain ⟨message, more, run, small, encoded⟩ :=
        session.initiatorRun_enabled encodes (expected enabled)
      obtain ⟨answer, answered⟩ := encodes.response responder
        (List.mem_cons_of_mem _ List.mem_cons_self)
      have read : Bytes.readFrame 4 session.initiatorRun.written =
          some (message, more) := by
        rw [run]
        exact Bytes.readFrame_frame small more
      obtain ⟨received, decoded⟩ := roundTrip _ _ _ encoded
      rw [session.responderReads, secureHandshake]
      simp only [enabled, not_true, if_false, Bool.false_eq_true, read,
        decoded, respond_ending [] enabled answered]

/-- A responder that expects a challenge waits for ever when the initiator
sends none. -/
theorem Session.responder_waits
    (disabled : initiator.config.enableEncryption = false)
    (enabled : responder.config.enableEncryption = true) :
    session.responderRun.ending = .waiting := by
  have silent : session.initiatorRun.written = [] := by
    rw [session.initiatorReads, secureHandshake_disabled disabled]
  rw [session.responderReads, secureHandshake, silent]
  simp [enabled, Bytes.readFrame]

theorem length_ownSessionKey (node : PureRustP2P platform) :
    node.ownSessionKey.length =
      if node.config.enableEncryption then 32 else 0 := by
  unfold ownSessionKey
  split
  · simp
  · rfl

/-- Agreement is about what each node derives from its own keys alone. -/
theorem Session.agrees_iff
    (encodes : Encodes initiator responder session.challenge)
    (roundTrip : platform.RoundTrip) :
    session.Agrees ↔ initiator.publicKey = responder.publicKey ∧
      initiator.ownSessionKey = responder.ownSessionKey := by
  have atInitiator := session.initiator_ending encodes
  constructor
  · intro agrees
    obtain ⟨initiatorRecord, responderRecord, initiatorRecorded,
      responderRecorded, sameKey, names, -⟩ :=
        agrees (.v4 (Vector.replicate 4 0) 0) (.v4 (Vector.replicate 4 0) 0)
          .unixEpoch
    rw [recorded, atInitiator, Option.some.injEq] at initiatorRecorded
    subst initiatorRecord
    refine ⟨names.1, ?_⟩
    by_cases expected : responder.config.enableEncryption = true →
        initiator.config.enableEncryption = true
    · rw [recorded, session.responder_ending encodes roundTrip expected,
        Option.some.injEq] at responderRecorded
      subst responderRecord
      exact Option.some.inj sameKey
    · simp only [Classical.not_imp, Bool.not_eq_true] at expected
      rw [recorded, session.responder_waits expected.2 expected.1]
        at responderRecorded
      cases responderRecorded
  · intro facts initiatorAddress responderAddress now
    obtain ⟨samePublicKey, sameKey⟩ := facts
    have sameSetting : responder.config.enableEncryption = true →
        initiator.config.enableEncryption = true := by
      intro enabled
      have lengths := congrArg List.length sameKey
      rw [length_ownSessionKey, length_ownSessionKey, enabled] at lengths
      by_contra disabled
      simp [disabled] at lengths
    have atResponder :=
      session.responder_ending encodes roundTrip sameSetting
    refine ⟨_, _, by rw [recorded, atInitiator],
      by rw [recorded, atResponder], congrArg some sameKey, ?_, ?_⟩
    · rw [← samePublicKey]
      exact ⟨rfl, rfl, rfl⟩
    · rw [samePublicKey]
      exact ⟨rfl, rfl, rfl⟩

end Agreement

theorem p2p_handshake_agreement_iff (commutes : platform.Commutes)
    (roundTrip : platform.RoundTrip)
    (initiatorConfig responderConfig : P2PConfig platform)
    (initiatorSecret responderSecret : platform.Secret)
    (initiatorStart responderStart : SystemTime)
    (session : Session (new initiatorConfig initiatorSecret initiatorStart)
      (new responderConfig responderSecret responderStart))
    (encodes : Encodes (new initiatorConfig initiatorSecret initiatorStart)
      (new responderConfig responderSecret responderStart)
      session.challenge) :
    session.Agrees ↔
      platform.publicKey initiatorSecret =
          platform.publicKey responderSecret ∧
        initiatorConfig.enableEncryption =
          responderConfig.enableEncryption := by
  rw [session.agrees_iff encodes roundTrip]
  constructor
  · intro facts
    obtain ⟨samePublicKey, sameKey⟩ := facts
    refine ⟨samePublicKey, ?_⟩
    have lengths := congrArg List.length sameKey
    rw [length_ownSessionKey, length_ownSessionKey] at lengths
    change (if initiatorConfig.enableEncryption then 32 else 0) =
      (if responderConfig.enableEncryption then 32 else 0) at lengths
    cases initiatorSetting : initiatorConfig.enableEncryption <;>
      cases responderSetting : responderConfig.enableEncryption <;>
      simp [initiatorSetting, responderSetting] at lengths ⊢
  · intro facts
    obtain ⟨samePublicKey, sameSetting⟩ := facts
    refine ⟨samePublicKey, ?_⟩
    have sameSecret :
        platform.diffieHellman initiatorSecret
            (platform.publicKey initiatorSecret) =
          platform.diffieHellman responderSecret
            (platform.publicKey responderSecret) :=
      calc
        platform.diffieHellman initiatorSecret
            (platform.publicKey initiatorSecret)
            = platform.diffieHellman initiatorSecret
                (platform.publicKey responderSecret) := by
              rw [samePublicKey]
        _ = platform.diffieHellman responderSecret
                (platform.publicKey initiatorSecret) :=
              commutes initiatorSecret responderSecret
        _ = platform.diffieHellman responderSecret
                (platform.publicKey responderSecret) := by
              rw [samePublicKey]
    change (if initiatorConfig.enableEncryption then
          (platform.diffieHellman initiatorSecret
            (platform.publicKey initiatorSecret)).toList
        else []) =
      (if responderConfig.enableEncryption then
          (platform.diffieHellman responderSecret
            (platform.publicKey responderSecret)).toList
        else [])
    rw [sameSetting, sameSecret]

/-- The session in which the initiator's bytes are there when the responder
reads. -/
def Session.ofNodes (initiator responder : PureRustP2P platform)
    (challenge : Vector UInt8 32) : Session initiator responder :=
  { challenge
    initiatorRun := initiator.secureHandshake true challenge []
    responderRun := responder.secureHandshake false challenge
      (initiator.secureHandshake true challenge []).written
    initiatorReads := by simp [secureHandshake]
    responderReads := rfl }

/-- bincode's encoding of a text of ASCII characters. -/
def sampleText (text : String) : Bytes :=
  (Bytes.leBytes 8 text.length).toList ++ Bytes.ofAscii text

def sampleAddress : SocketAddr → Bytes
  | .v4 ip port =>
      (Bytes.leBytes 4 0).toList ++ ip.toList ++
        (Bytes.leBytes 2 port.toNat).toList
  | .v6 ip port _ =>
      (Bytes.leBytes 4 1).toList ++
        ip.flatMap (fun group : UInt16 =>
          [(group >>> 8).toUInt8, group.toUInt8]) ++
        (Bytes.leBytes 2 port.toNat).toList

def samplePeerInfo (info : PeerInfo) : Bytes :=
  info.peerId.toList ++ sampleAddress info.address ++
    info.publicKey.toList ++
    (Bytes.leBytes 8 info.lastSeen.tvSec.toNat).toList ++
    (Bytes.leBytes 4 info.lastSeen.tvNsec).toList ++
    (Bytes.leBytes 8 info.capabilities.length).toList ++
    (info.capabilities.map sampleText).flatten ++ sampleText info.version

/-- bincode's encoding of the two handshake messages. -/
def sampleMessage : P2PMessage → Bytes
  | .handshake info challenge =>
      (Bytes.leBytes 4 0).toList ++ samplePeerInfo info ++ challenge.toList
  | .handshakeResponse info response signature =>
      (Bytes.leBytes 4 1).toList ++ samplePeerInfo info ++ response.toList ++
        (Bytes.leBytes 8 signature.length).toList ++ signature
  | _ => []

/-- The Ed25519 signatures of `[5; 32]` under the seeds `[3; 32]` and
`[4; 32]`. -/
def sampleSignature : Bool → Vector UInt8 64
  | false => Bytes.leBytes 64
      (0x047d55315020d01c93f0065da9d07558b6ceb4ccac5c7b9bef8604d1f66bb7a8 *
          2 ^ 256 +
        0xcd4dec2ef7b2d3efe98a861bc3d3b07de6940b38e7efe88833bd46bace825366)
  | true => Bytes.leBytes 64
      (0x0358d1e9420288ebf0d80b243f44cf6df950f36a859a0299aec6f8e2c5155bbc *
          2 ^ 256 +
        0x0a6ab158cd6fa5c70234440fb57cc676304576507904ddf16f236bd664c4ba66)

def sampleChallenge : Vector UInt8 32 := Vector.replicate 32 5

def sampleStart : SystemTime := SystemTime.ofUnixSecs 1700000400 (by decide)

def sampleInfo (secret : Bool) (port : UInt16) : PeerInfo :=
  { peerId := Crypto.sampleBlake3 ((Crypto.samplePublicKey secret).toList ++
      Bytes.ofAscii "nyx-p2p-v1")
    address := .v4 #v[127, 0, 0, 1] port
    publicKey := Crypto.samplePublicKey secret
    lastSeen := sampleStart
    capabilities := ["dht", "routing"]
    version := "1.0.0" }

/-- What a node on port 3100 and one on port 3101 send each other. -/
def sampleMessages : List P2PMessage :=
  [.handshake (sampleInfo false 3100) sampleChallenge,
    .handshakeResponse (sampleInfo false 3100) sampleChallenge
      (sampleSignature false).toList,
    .handshakeResponse (sampleInfo false 3101) sampleChallenge
      (sampleSignature true).toList,
    .handshakeResponse (sampleInfo true 3101) sampleChallenge
      (sampleSignature true).toList]

def samplePlatform : Platform :=
  { Crypto.samplePrimitives with
    SigningKey := Bool
    sign := fun key _ => sampleSignature key
    serialize := fun message =>
      if message ∈ sampleMessages then some (sampleMessage message) else none
    deserialize := fun bytes =>
      sampleMessages.find? (fun message => sampleMessage message = bytes) }

theorem samplePlatform_serialize {message : P2PMessage}
    (member : message ∈ sampleMessages) :
    samplePlatform.serialize message = some (sampleMessage message) :=
  if_pos member

theorem samplePlatform_roundTrip : samplePlatform.RoundTrip := by
  have decodes : ∀ message ∈ sampleMessages,
      samplePlatform.deserialize (sampleMessage message) = some message := by
    decide +kernel
  intro peerInfo challenge bytes encoded
  by_cases member : .handshake peerInfo challenge ∈ sampleMessages
  · rw [samplePlatform_serialize member] at encoded
    rw [← Option.some.inj encoded]
    exact ⟨peerInfo, decodes _ member⟩
  · have rejected : samplePlatform.serialize (.handshake peerInfo challenge) =
        none := if_neg member
    rw [rejected] at encoded
    cases encoded

def sampleNode (secret : Bool) (signingKey : Bool) (port : UInt16) :
    PureRustP2P samplePlatform :=
  new { listenAddress := .v4 #v[127, 0, 0, 1] port
        enableEncryption := true
        signingKey } secret sampleStart

/-- An initiator with secret `[1; 32]` against a responder. -/
def sampleSession (secret : Bool) :
    Session (sampleNode false false 3100) (sampleNode secret true 3101) :=
  Session.ofNodes _ _ sampleChallenge

theorem sampleSession_encodes (secret : Bool) :
    Encodes (sampleNode false false 3100) (sampleNode secret true 3101)
      (sampleSession secret).challenge := by
  constructor
  · refine ⟨_, samplePlatform_serialize List.mem_cons_self, ?_⟩
    cases secret <;> decide +kernel
  · intro node member
    rcases List.mem_cons.mp member with rfl | member
    · exact ⟨_, samplePlatform_serialize
        (List.mem_cons_of_mem _ List.mem_cons_self)⟩
    · rw [List.mem_singleton] at member
      subst node
      refine ⟨_, samplePlatform_serialize ?_⟩
      cases secret with
      | false =>
          exact List.mem_cons_of_mem _
            (List.mem_cons_of_mem _ List.mem_cons_self)
      | true =>
          exact List.mem_cons_of_mem _ (List.mem_cons_of_mem _
            (List.mem_cons_of_mem _ List.mem_cons_self))

theorem p2p_handshake_agreement_sample :
    (sampleSession false).Agrees ∧ ¬ (sampleSession true).Agrees := by
  have agreement : ∀ secret, (sampleSession secret).Agrees ↔
      Crypto.samplePublicKey false = Crypto.samplePublicKey secret ∧
        true = true :=
    fun secret => p2p_handshake_agreement_iff
      Crypto.samplePrimitives_commutes samplePlatform_roundTrip _ _ _ _ _ _
      (sampleSession secret) (sampleSession_encodes secret)
  constructor
  · exact (agreement false).mpr ⟨rfl, rfl⟩
  · intro agrees
    exact Crypto.samplePublicKey_ne ((agreement true).mp agrees).1.symm

/-- Secrets `[1; 32]` and `[2; 32]`: each side keeps its own public key, and
the session keys differ. -/
theorem p2p_handshake_disagrees :
    (sampleSession true).initiatorRun.ending =
        .finished (Crypto.samplePublicKey false)
          (Crypto.sampleShared false false).toList ∧
      (sampleSession true).responderRun.ending =
        .finished (Crypto.samplePublicKey true)
          (Crypto.sampleShared true true).toList ∧
      ¬ (sampleSession true).Agrees := by
  refine ⟨by decide +kernel, by decide +kernel, ?_⟩
  rw [Session.agrees_iff _ (sampleSession_encodes true)
    samplePlatform_roundTrip]
  intro facts
  obtain ⟨samePublicKey, -⟩ := facts
  exact Crypto.samplePublicKey_ne samePublicKey.symm

end PureRustP2P

end NyxNet.Daemon
