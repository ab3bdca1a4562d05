import NyxNet.Crypto.Aead
import NyxNet.Crypto.Primitives
import NyxNet.Lib.Trace

/-!
# Noise XX handshake

`NoiseHandshake` of `nyx-crypto/src/noise.rs`.  Messages and payload buffers
are byte lists; a call returns its result together with the contents of the
buffer it was given, and may change the handshake even when it fails.  The
ephemeral secret a write draws from the operating system is an argument of the
call.  The hasher is represented by the bytes it has absorbed.
-/

namespace NyxNet.Crypto

/-- The errors the handshake calls return. -/
inductive NoiseError where
  | invalidState (expected actual : String)
  | messageTooShort (expected actual : Nat)
  | transportNotAvailable
  deriving DecidableEq, Repr

inductive HandshakeState where
  | initial
  | initiatorSentFirst
  | responderReceivedFirst
  | responderSentSecond
  | initiatorReceivedSecond
  | completed
  deriving DecidableEq, Repr

inductive Role where
  | initiator
  | responder
  deriving DecidableEq, Repr

/-- The derived `Debug` texts, which the state errors quote. -/
def HandshakeState.debug : HandshakeState → String
  | .initial => "Initial"
  | .initiatorSentFirst => "InitiatorSentFirst"
  | .responderReceivedFirst => "ResponderReceivedFirst"
  | .responderSentSecond => "ResponderSentSecond"
  | .initiatorReceivedSecond => "InitiatorReceivedSecond"
  | .completed => "Completed"

def Role.debug : Role → String
  | .initiator => "Initiator"
  | .responder => "Responder"

structure NoiseTransport where
  sendKey : SessionKey
  recvKey : SessionKey
  sendNonce : UInt64
  recvNonce : UInt64
  deriving DecidableEq, Repr

def NoiseTransport.new (sendKey recvKey : SessionKey) : NoiseTransport :=
  { sendKey, recvKey, sendNonce := 0, recvNonce := 0 }

structure NoiseHandshake (primitives : Primitives) where
  state : HandshakeState
  role : Role
  localStatic : Option primitives.Secret
  localEphemeral : Option primitives.Secret
  remoteStatic : Option Point
  remoteEphemeral : Option Point
  handshakeHash : Bytes
  chainingKey : Vector UInt8 32
  symmetricKey : Option SessionKey

/-- `data[offset..offset + 32]` copied into an array, the length having been
checked. -/
def bytes32At (data : Bytes) (offset : Nat) : Vector UInt8 32 :=
  Vector.ofFn (fun index => data.getD (offset + index.val) 0)

theorem bytes32At_append (front rest : Bytes) (block : Vector UInt8 32) :
    bytes32At (front ++ (block.toList ++ rest)) front.length = block := by
  apply Vector.ext
  intro index bound
  have inBlock : index < block.toList.length := by simpa using bound
  simp [bytes32At, List.getD_eq_getElem?_getD, List.getElem?_append_right,
    List.getElem?_append_left inBlock, bound]

namespace NoiseHandshake

variable {primitives : Primitives}

def protocolName : Bytes := Bytes.ofAscii "Noise_XX_25519_ChaChaPoly_BLAKE3"

def newWithRole (role : Role) (localStatic : primitives.Secret) :
    NoiseHandshake primitives :=
  { state := .initial
    role
    localStatic := some localStatic
    localEphemeral := none
    remoteStatic := none
    remoteEphemeral := none
    handshakeHash := protocolName
    chainingKey := primitives.blake3 protocolName
    symmetricKey := none }

def newInitiator (localStatic : primitives.Secret) :
    NoiseHandshake primitives :=
  newWithRole .initiator localStatic

def newResponder (localStatic : primitives.Secret) :
    NoiseHandshake primitives :=
  newWithRole .responder localStatic

def updateHandshakeHash (handshake : NoiseHandshake primitives)
    (data : Bytes) : NoiseHandshake primitives :=
  { handshake with handshakeHash := handshake.handshakeHash ++ data }

/-- Mixes key material into the chaining key.  No message function calls it. -/
def mixKey (handshake : NoiseHandshake primitives) (keyMaterial : Bytes) :
    NoiseHandshake primitives :=
  let chainingKey :=
    primitives.blake3 (handshake.chainingKey.toList ++ keyMaterial)
  { handshake with
    chainingKey
    symmetricKey := some
      ⟨hkdfExpand primitives chainingKey.toList .session 32 (by decide)⟩ }

/-- What a call returns: its result and the buffer it has written into. -/
abbrev Reply : Type := Except NoiseError Nat × Bytes

def writeInitiatorFirstMessage (handshake : NoiseHandshake primitives)
    (ephemeral : primitives.Secret) (payload message : Bytes) :
    Reply × NoiseHandshake primitives :=
  if message.length < 32 + payload.length then
    ((.error (.messageTooShort (32 + payload.length) message.length),
      message), handshake)
  else
    let ephemeralPub := (primitives.publicKey ephemeral).toList
    let message := Bytes.copyFromSlice message 0 ephemeralPub
    let handshake := handshake.updateHandshakeHash ephemeralPub
    let message := Bytes.copyFromSlice message 32 payload
    let handshake := handshake.updateHandshakeHash payload
    ((.ok (32 + payload.length), message),
      { handshake with
        localEphemeral := some ephemeral
        state := .initiatorSentFirst })

def readInitiatorFirstMessage (handshake : NoiseHandshake primitives)
    (message payload : Bytes) : Reply × NoiseHandshake primitives :=
  if message.length < 32 then
    ((.error (.messageTooShort 32 message.length), payload), handshake)
  else
    let remoteEphemeral := bytes32At message 0
    let handshake := handshake.updateHandshakeHash remoteEphemeral.toList
    let payloadLen := message.length - 32
    if payload.length < payloadLen then
      -- The transcript has already absorbed the ephemeral key.
      ((.error (.messageTooShort payloadLen payload.length), payload),
        handshake)
    else
      let payload := Bytes.copyFromSlice payload 0 (message.drop 32)
      let handshake := handshake.updateHandshakeHash (message.drop 32)
      ((.ok payloadLen, payload),
        { handshake with
          remoteEphemeral := some remoteEphemeral
          state := .responderReceivedFirst })

def writeResponderSecondMessage (handshake : NoiseHandshake primitives)
    (ephemeral : primitives.Secret) (payload message : Bytes) :
    Reply × NoiseHandshake primitives :=
  if message.length < 64 + payload.length then
    ((.error (.messageTooShort (64 + payload.length) message.length),
      message), handshake)
  else
    let ephemeralPub := (primitives.publicKey ephemeral).toList
    let message := Bytes.copyFromSlice message 0 ephemeralPub
    match handshake.localStatic with
    | none =>
        ((.error (.invalidState "local static key" "None"), message),
          handshake)
    | some key =>
        let staticPub := (primitives.publicKey key).toList
        let message := Bytes.copyFromSlice message 32 staticPub
        let message := Bytes.copyFromSlice message 64 payload
        let handshake := handshake.updateHandshakeHash ephemeralPub
        let handshake := handshake.updateHandshakeHash staticPub
        let handshake := handshake.updateHandshakeHash payload
        ((.ok (64 + payload.length), message),
          { handshake with
            localEphemeral := some ephemeral
            state := .responderSentSecond })

def readResponderSecondMessage (handshake : NoiseHandshake primitives)
    (message payload : Bytes) : Reply × NoiseHandshake primitives :=
  if message.length < 64 then
    ((.error (.messageTooShort 64 message.length), payload), handshake)
  else
    let remoteEphemeral := bytes32At message 0
    let remoteStatic := bytes32At message 32
    let payloadLen := message.length - 64
    if payload.length < payloadLen then
      ((.error (.messageTooShort payloadLen payload.length), payload),
        handshake)
    else
      let payload := Bytes.copyFromSlice payload 0 (message.drop 64)
      let handshake := handshake.updateHandshakeHash remoteEphemeral.toList
      let handshake := handshake.updateHandshakeHash remoteStatic.toList
      let handshake := handshake.updateHandshakeHash (message.drop 64)
      ((.ok payloadLen, payload),
        { handshake with
          remoteEphemeral := some remoteEphemeral
          remoteStatic := some remoteStatic
          state := .initiatorReceivedSecond })

def writeInitiatorThirdMessage (handshake : NoiseHandshake primitives)
    (payload message : Bytes) : Reply × NoiseHandshake primitives :=
  if message.length < 32 + payload.length then
    ((.error (.messageTooShort (32 + payload.length) message.length),
      message), handshake)
  else
    match handshake.localStatic with
    | none =>
        ((.error (.invalidState "local static key for message 2" "None"),
          message), handshake)
    | some key =>
        let staticPub := (primitives.publicKey key).toList
        let message := Bytes.copyFromSlice message 0 staticPub
        let message := Bytes.copyFromSlice message 32 payload
        let handshake := handshake.updateHandshakeHash staticPub
        let handshake := handshake.updateHandshakeHash payload
        ((.ok (32 + payload.length), message),
          { handshake with state := .completed })

def readInitiatorThirdMessage (handshake : NoiseHandshake primitives)
    (message payload : Bytes) : Reply × NoiseHandshake primitives :=
  if message.length < 32 then
    ((.error (.messageTooShort 32 message.length), payload), handshake)
  else
    let remoteStatic := bytes32At message 0
    let payloadLen := message.length - 32
    if payload.length < payloadLen then
      ((.error (.messageTooShort payloadLen payload.length), payload),
        handshake)
    else
      let payload := Bytes.copyFromSlice payload 0 (message.drop 32)
      let handshake := handshake.updateHandshakeHash remoteStatic.toList
      let handshake := handshake.updateHandshakeHash (message.drop 32)
      ((.ok payloadLen, payload),
        { handshake with
          remoteStatic := some remoteStatic
          state := .completed })

/-- The error of a call that does not fit the role and state. -/
def invalidState (handshake : NoiseHandshake primitives) (expected : String) :
    NoiseError :=
  .invalidState expected
    (handshake.role.debug ++ " in state " ++ handshake.state.debug)

def writeMessage (handshake : NoiseHandshake primitives)
    (ephemeral : primitives.Secret) (payload message : Bytes) :
    Reply × NoiseHandshake primitives :=
  match handshake.role, handshake.state with
  | .initiator, .initial =>
      handshake.writeInitiatorFirstMessage ephemeral payload message
  | .responder, .responderReceivedFirst =>
      handshake.writeResponderSecondMessage ephemeral payload message
  | .initiator, .initiatorReceivedSecond =>
      handshake.writeInitiatorThirdMessage payload message
  | _, _ =>
      ((.error (handshake.invalidState "valid write state"), message),
        handshake)

def readMessage (handshake : NoiseHandshake primitives)
    (message payload : Bytes) : Reply × NoiseHandshake primitives :=
  match handshake.role, handshake.state with
  | .responder, .initial =>
      handshake.readInitiatorFirstMessage message payload
  | .initiator, .initiatorSentFirst =>
      handshake.readResponderSecondMessage message payload
  | .responder, .responderSentSecond =>
      handshake.readInitiatorThirdMessage message payload
  | _, _ =>
      ((.error (handshake.invalidState "valid read state"), payload),
        handshake)

def isCompleted (handshake : NoiseHandshake primitives) : Bool :=
  handshake.state = .completed

theorem transport_material_fits : 64 ≤ 255 * 32 := by decide

def intoTransportMode (handshake : NoiseHandshake primitives) :
    Except NoiseError NoiseTransport :=
  if ¬ handshake.isCompleted then .error .transportNotAvailable
  else
    let material :=
      hkdfExpand primitives handshake.chainingKey.toList .session 64
        transport_material_fits
    let firstHalf := bytes32At material.toList 0
    let secondHalf := bytes32At material.toList 32
    match handshake.role with
    | .initiator => .ok (NoiseTransport.new ⟨firstHalf⟩ ⟨secondHalf⟩)
    | .responder => .ok (NoiseTransport.new ⟨secondHalf⟩ ⟨firstHalf⟩)

end NoiseHandshake

end NyxNet.Crypto
