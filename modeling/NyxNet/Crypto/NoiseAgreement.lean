import NyxNet.Crypto.NoiseXx

/-!
# Agreement of the two ends

The three messages of an exchange are handed over truncated to the length the
writer reported, as the callers do.  Both ends absorb the same transcript and
derive the same two keys.  The keys themselves come from the chaining key,
which is still the hash of the protocol name.
-/

namespace NyxNet.Crypto

namespace NoiseHandshake

variable {primitives : Primitives}

private theorem copy_two {message payload : Bytes} (point : Point)
    (fits : 32 + payload.length ≤ message.length) :
    Bytes.copyFromSlice (Bytes.copyFromSlice message 0 point.toList) 32
        payload =
      Bytes.copyFromSlice message 0 (point.toList ++ payload) := by
  have adjacent := Bytes.copyFromSlice_adjacent message point.toList payload 0
    (by rw [Vector.length_toList]; omega)
  rwa [Nat.zero_add, Vector.length_toList] at adjacent

private theorem copy_three {message payload : Bytes} (first second : Point)
    (fits : 64 + payload.length ≤ message.length) :
    Bytes.copyFromSlice (Bytes.copyFromSlice (Bytes.copyFromSlice message 0
        first.toList) 32 second.toList) 64 payload =
      Bytes.copyFromSlice message 0
        (first.toList ++ second.toList ++ payload) := by
  have points : (first.toList ++ second.toList).length = 64 := by simp
  have adjacent := Bytes.copyFromSlice_adjacent message
    (first.toList ++ second.toList) payload 0 (by rw [points]; omega)
  rw [Nat.zero_add, points] at adjacent
  rw [copy_two first (by rw [Vector.length_toList]; omega)]
  exact adjacent

section Successful

variable (handshake : NoiseHandshake primitives)

theorem writeInitiatorFirstMessage_eq (ephemeral : primitives.Secret)
    {payload message : Bytes}
    (fits : 32 + payload.length ≤ message.length) :
    handshake.writeInitiatorFirstMessage ephemeral payload message =
      ((.ok (32 + payload.length), Bytes.copyFromSlice message 0
          ((primitives.publicKey ephemeral).toList ++ payload)),
        { handshake with
          handshakeHash := handshake.handshakeHash ++
            (primitives.publicKey ephemeral).toList ++ payload
          localEphemeral := some ephemeral
          state := .initiatorSentFirst }) := by
  unfold writeInitiatorFirstMessage
  rw [if_neg (Nat.not_lt.mpr fits)]
  simp only [copy_two _ fits]
  rfl

theorem writeResponderSecondMessage_eq (ephemeral key : primitives.Secret)
    {payload message : Bytes}
    (fits : 64 + payload.length ≤ message.length)
    (known : handshake.localStatic = some key) :
    handshake.writeResponderSecondMessage ephemeral payload message =
      ((.ok (64 + payload.length), Bytes.copyFromSlice message 0
          ((primitives.publicKey ephemeral).toList ++
            (primitives.publicKey key).toList ++ payload)),
        { handshake with
          handshakeHash := handshake.handshakeHash ++
            (primitives.publicKey ephemeral).toList ++
            (primitives.publicKey key).toList ++ payload
          localEphemeral := some ephemeral
          state := .responderSentSecond }) := by
  unfold writeResponderSecondMessage
  rw [if_neg (Nat.not_lt.mpr fits)]
  simp only [known, copy_three _ _ fits, updateHandshakeHash]

theorem writeInitiatorThirdMessage_eq (key : primitives.Secret)
    {payload message : Bytes}
    (fits : 32 + payload.length ≤ message.length)
    (known : handshake.localStatic = some key) :
    handshake.writeInitiatorThirdMessage payload message =
      ((.ok (32 + payload.length), Bytes.copyFromSlice message 0
          ((primitives.publicKey key).toList ++ payload)),
        { handshake with
          handshakeHash := handshake.handshakeHash ++
            (primitives.publicKey key).toList ++ payload
          state := .completed }) := by
  unfold writeInitiatorThirdMessage
  rw [if_neg (Nat.not_lt.mpr fits)]
  simp only [known, copy_two _ fits, updateHandshakeHash]

private theorem first_point (point : Point) (rest : Bytes) :
    bytes32At (point.toList ++ rest) 0 = point ∧
      (point.toList ++ rest).drop 32 = rest ∧
      (point.toList ++ rest).length = 32 + rest.length := by
  refine ⟨bytes32At_append [] rest point, ?_, by simp⟩
  exact List.drop_left' Vector.length_toList

private theorem two_points (first second : Point) (rest : Bytes) :
    bytes32At (first.toList ++ second.toList ++ rest) 0 = first ∧
      bytes32At (first.toList ++ second.toList ++ rest) 32 = second ∧
      (first.toList ++ second.toList ++ rest).drop 64 = rest ∧
      (first.toList ++ second.toList ++ rest).length =
        64 + rest.length := by
  refine ⟨?_, ?_, ?_, by simp; omega⟩
  · rw [List.append_assoc]
    exact bytes32At_append [] _ first
  · have second_eq := bytes32At_append first.toList rest second
    rwa [Vector.length_toList, ← List.append_assoc] at second_eq
  · exact List.drop_left' (by simp)

theorem readInitiatorFirstMessage_eq (point : Point) {payload buffer : Bytes}
    (fits : payload.length ≤ buffer.length) :
    handshake.readInitiatorFirstMessage (point.toList ++ payload) buffer =
      ((.ok payload.length, Bytes.copyFromSlice buffer 0 payload),
        { handshake with
          handshakeHash := handshake.handshakeHash ++ point.toList ++ payload
          remoteEphemeral := some point
          state := .responderReceivedFirst }) := by
  obtain ⟨point_eq, rest_eq, length_eq⟩ := first_point point payload
  unfold readInitiatorFirstMessage
  rw [if_neg (by omega)]
  simp only [point_eq, rest_eq, length_eq, Nat.add_sub_cancel_left,
    if_neg (Nat.not_lt.mpr fits)]
  rfl

theorem readResponderSecondMessage_eq (first second : Point)
    {payload buffer : Bytes} (fits : payload.length ≤ buffer.length) :
    handshake.readResponderSecondMessage
        (first.toList ++ second.toList ++ payload) buffer =
      ((.ok payload.length, Bytes.copyFromSlice buffer 0 payload),
        { handshake with
          handshakeHash := handshake.handshakeHash ++ first.toList ++
            second.toList ++ payload
          remoteEphemeral := some first
          remoteStatic := some second
          state := .initiatorReceivedSecond }) := by
  obtain ⟨first_eq, second_eq, rest_eq, length_eq⟩ :=
    two_points first second payload
  unfold readResponderSecondMessage
  rw [if_neg (by omega)]
  simp only [first_eq, second_eq, rest_eq, length_eq,
    Nat.add_sub_cancel_left, if_neg (Nat.not_lt.mpr fits)]
  rfl

theorem readInitiatorThirdMessage_eq (point : Point) {payload buffer : Bytes}
    (fits : payload.length ≤ buffer.length) :
    handshake.readInitiatorThirdMessage (point.toList ++ payload) buffer =
      ((.ok payload.length, Bytes.copyFromSlice buffer 0 payload),
        { handshake with
          handshakeHash := handshake.handshakeHash ++ point.toList ++ payload
          remoteStatic := some point
          state := .completed }) := by
  obtain ⟨point_eq, rest_eq, length_eq⟩ := first_point point payload
  unfold readInitiatorThirdMessage
  rw [if_neg (by omega)]
  simp only [point_eq, rest_eq, length_eq, Nat.add_sub_cancel_left,
    if_neg (Nat.not_lt.mpr fits)]
  rfl

end Successful

/-- The part of the buffer a call has filled. -/
def truncated (reply : Reply) : Except NoiseError Bytes :=
  match reply.1 with
  | .ok length => .ok (reply.2.take length)
  | .error error => .error error

theorem truncated_payload (buffer data : Bytes) :
    truncated (.ok data.length, Bytes.copyFromSlice buffer 0 data) =
      .ok data := by
  simp only [truncated, Bytes.take_copyFromSlice_zero]

theorem truncated_one_point (buffer payload : Bytes) (point : Point) :
    truncated (.ok (32 + payload.length),
        Bytes.copyFromSlice buffer 0 (point.toList ++ payload)) =
      .ok (point.toList ++ payload) := by
  rw [← (first_point point payload).2.2]
  exact truncated_payload buffer _

theorem truncated_two_points (buffer payload : Bytes)
    (first second : Point) :
    truncated (.ok (64 + payload.length), Bytes.copyFromSlice buffer 0
        (first.toList ++ second.toList ++ payload)) =
      .ok (first.toList ++ second.toList ++ payload) := by
  rw [← (two_points first second payload).2.2.2]
  exact truncated_payload buffer _

/-- One message: its payload and the buffers of writer and reader, both large
enough for a payload behind `overhead` bytes of keys. -/
structure Leg (overhead : Nat) where
  payload : Bytes
  message : Bytes
  received : Bytes
  messageFits : overhead + payload.length ≤ message.length
  receivedFits : payload.length ≤ received.length

structure Exchange (primitives : Primitives) where
  initiatorStatic : primitives.Secret
  initiatorEphemeral : primitives.Secret
  responderStatic : primitives.Secret
  responderEphemeral : primitives.Secret
  first : Leg 32
  second : Leg 64
  third : Leg 32

/-- What an exchange leaves behind: the payloads as they were received and the
two handshakes. -/
structure Exchanged (primitives : Primitives) where
  firstPayload : Bytes
  secondPayload : Bytes
  thirdPayload : Bytes
  initiator : NoiseHandshake primitives
  responder : NoiseHandshake primitives

/-- Passes the three messages of an initiator and a responder to each other.
The third message draws no secret, so the one handed to it is not used. -/
def Exchange.run (exchange : Exchange primitives) :
    Except NoiseError (Exchanged primitives) := do
  let (reply, initiator) :=
    (newInitiator exchange.initiatorStatic).writeMessage
      exchange.initiatorEphemeral exchange.first.payload
      exchange.first.message
  let message ← truncated reply
  let (reply, responder) :=
    (newResponder exchange.responderStatic).readMessage message
      exchange.first.received
  let firstPayload ← truncated reply
  let (reply, responder) :=
    responder.writeMessage exchange.responderEphemeral
      exchange.second.payload exchange.second.message
  let message ← truncated reply
  let (reply, initiator) :=
    initiator.readMessage message exchange.second.received
  let secondPayload ← truncated reply
  let (reply, initiator) :=
    initiator.writeMessage exchange.initiatorEphemeral
      exchange.third.payload exchange.third.message
  let message ← truncated reply
  let (reply, responder) :=
    responder.readMessage message exchange.third.received
  let thirdPayload ← truncated reply
  return { firstPayload, secondPayload, thirdPayload, initiator, responder }

/-- Everything both ends absorb. -/
def Exchange.transcript (exchange : Exchange primitives) : Bytes :=
  protocolName ++
    (primitives.publicKey exchange.initiatorEphemeral).toList ++
    exchange.first.payload ++
    (primitives.publicKey exchange.responderEphemeral).toList ++
    (primitives.publicKey exchange.responderStatic).toList ++
    exchange.second.payload ++
    (primitives.publicKey exchange.initiatorStatic).toList ++
    exchange.third.payload

/-- The state an end is left in. -/
def Exchange.ending (exchange : Exchange primitives) (role : Role)
    (localStatic localEphemeral remoteStatic remoteEphemeral :
      primitives.Secret) : NoiseHandshake primitives :=
  { state := .completed
    role
    localStatic := some localStatic
    localEphemeral := some localEphemeral
    remoteStatic := some (primitives.publicKey remoteStatic)
    remoteEphemeral := some (primitives.publicKey remoteEphemeral)
    handshakeHash := exchange.transcript
    chainingKey := primitives.blake3 protocolName
    symmetricKey := none }

theorem Exchange.run_eq (exchange : Exchange primitives) :
    exchange.run = .ok
      { firstPayload := exchange.first.payload
        secondPayload := exchange.second.payload
        thirdPayload := exchange.third.payload
        initiator := exchange.ending .initiator exchange.initiatorStatic
          exchange.initiatorEphemeral exchange.responderStatic
          exchange.responderEphemeral
        responder := exchange.ending .responder exchange.responderStatic
          exchange.responderEphemeral exchange.initiatorStatic
          exchange.initiatorEphemeral } := by
  unfold Exchange.run newInitiator newResponder newWithRole
  simp only [writeMessage, readMessage,
    writeInitiatorFirstMessage_eq _ _ exchange.first.messageFits,
    truncated_one_point, bind, Except.bind,
    readInitiatorFirstMessage_eq _ _ exchange.first.receivedFits,
    truncated_payload,
    writeResponderSecondMessage_eq _ _ exchange.responderStatic
      exchange.second.messageFits,
    truncated_two_points,
    readResponderSecondMessage_eq _ _ _ exchange.second.receivedFits,
    writeInitiatorThirdMessage_eq _ exchange.initiatorStatic
      exchange.third.messageFits,
    readInitiatorThirdMessage_eq _ _ exchange.third.receivedFits]
  rfl

/-- Both ends are done, saw the same transcript and hold matching keys, and
every payload arrived unchanged. -/
structure Exchange.Agrees (exchange : Exchange primitives)
    (exchanged : Exchanged primitives) : Prop where
  first : exchanged.firstPayload = exchange.first.payload
  second : exchanged.secondPayload = exchange.second.payload
  third : exchanged.thirdPayload = exchange.third.payload
  initiatorCompleted : exchanged.initiator.state = .completed
  responderCompleted : exchanged.responder.state = .completed
  transcript :
    exchanged.initiator.handshakeHash = exchanged.responder.handshakeHash
  keys : ∃ initiator responder,
    exchanged.initiator.intoTransportMode = .ok initiator ∧
      exchanged.responder.intoTransportMode = .ok responder ∧
      initiator.sendKey = responder.recvKey ∧
      initiator.recvKey = responder.sendKey

theorem Exchange.agrees (exchange : Exchange primitives) :
    ∃ exchanged, exchange.run = .ok exchanged ∧
      exchange.Agrees exchanged := by
  refine ⟨_, exchange.run_eq, ?_⟩
  constructor
  · rfl
  · rfl
  · rfl
  · rfl
  · rfl
  · rfl
  · exact ⟨_, _, rfl, rfl, rfl, rfl⟩

theorem noise_xx_completion (primitives : Primitives) :
    (∀ exchange : Exchange primitives, ∃ exchanged,
      exchange.run = .ok exchanged ∧ exchange.Agrees exchanged) ∧
      ∀ (role : Role) (localStatic : primitives.Secret)
        (calls : List (Call primitives)),
        ((Trace.final perform (newWithRole role localStatic) calls).state =
            .completed ↔
          successes (Trace.history perform (newWithRole role localStatic)
            calls) = script role) ∧
          ((∃ transport, (Trace.final perform (newWithRole role localStatic)
              calls).intoTransportMode = .ok transport) ↔
            (Trace.final perform (newWithRole role localStatic) calls).state =
              .completed) := by
  refine ⟨Exchange.agrees, ?_⟩
  intro role localStatic calls
  exact ⟨completed_iff_successes (progress_run role localStatic calls),
    intoTransportMode_isOk_iff _⟩

/-- Three payloads in buffers of 40, 72 and 32 bytes. -/
def sampleExchange : Exchange samplePrimitives :=
  { initiatorStatic := false
    initiatorEphemeral := false
    responderStatic := true
    responderEphemeral := true
    first := ⟨[1, 2], List.replicate 40 0, List.replicate 8 0, by decide,
      by decide⟩
    second := ⟨[3], List.replicate 72 0, List.replicate 8 0, by decide,
      by decide⟩
    third := ⟨[], List.replicate 32 0, [], by decide, by decide⟩ }

theorem noise_xx_completion_sample :
    ∃ exchanged, sampleExchange.run = .ok exchanged ∧
      sampleExchange.Agrees exchanged :=
  (noise_xx_completion samplePrimitives).1 sampleExchange

/-- A completed run of one end: its role and static secret and the calls that
completed it. -/
structure CompletedRun (primitives : Primitives) where
  role : Role
  localStatic : primitives.Secret
  calls : List (Call primitives)
  completed : (Trace.final perform (newWithRole role localStatic)
    calls).state = .completed

namespace CompletedRun

def ending (run : CompletedRun primitives) : NoiseHandshake primitives :=
  Trace.final perform (newWithRole run.role run.localStatic) run.calls

/-- The transport keys, first the one from initiator to responder. -/
def directionKeys (run : CompletedRun primitives) :
    Option (SessionKey × SessionKey) :=
  match run.ending.intoTransportMode with
  | .error _ => none
  | .ok transport =>
      match run.role with
      | .initiator => some (transport.sendKey, transport.recvKey)
      | .responder => some (transport.recvKey, transport.sendKey)

/-- The shared secret of a local secret and a remote key, once both are
known. -/
def shared (secret : Option primitives.Secret) (point : Option Point) :
    Option Point :=
  match secret, point with
  | some secret, some point => some (primitives.diffieHellman secret point)
  | _, _ => none

/-- The four Diffie-Hellman results of the XX pattern, `ee`, `es`, `se` and
`ss`; the initiator's key comes first. -/
def sharedSecrets (run : CompletedRun primitives) : List (Option Point) :=
  let handshake := run.ending
  let ephemeralStatic :=
    shared handshake.localEphemeral handshake.remoteStatic
  let staticEphemeral :=
    shared handshake.localStatic handshake.remoteEphemeral
  let ee := shared handshake.localEphemeral handshake.remoteEphemeral
  let ss := shared handshake.localStatic handshake.remoteStatic
  match run.role with
  | .initiator => [ee, ephemeralStatic, staticEphemeral, ss]
  | .responder => [ee, staticEphemeral, ephemeralStatic, ss]

end CompletedRun

/-- The two halves of the expansion of the protocol name's digest. -/
def publicConstantKeys (primitives : Primitives) : SessionKey × SessionKey :=
  let material :=
    hkdfExpand primitives (primitives.blake3 protocolName).toList .session 64
      transport_material_fits
  (⟨bytes32At material.toList 0⟩, ⟨bytes32At material.toList 32⟩)

theorem CompletedRun.directionKeys_eq (run : CompletedRun primitives) :
    run.directionKeys = some (publicConstantKeys primitives) := by
  have progress := progress_run run.role run.localStatic run.calls
  have completed : run.ending.isCompleted = true := decide_eq_true run.completed
  have role : run.ending.role = run.role := progress.role_eq
  have chainingKey : run.ending.chainingKey =
      primitives.blake3 protocolName := progress.chainingKey_eq
  unfold CompletedRun.directionKeys intoTransportMode publicConstantKeys
  rw [completed, role, chainingKey]
  cases run.role with
  | initiator => rfl
  | responder => rfl

/-- Different Diffie-Hellman results give different transport keys. -/
def KeysFollowExchange (first second : CompletedRun primitives) : Prop :=
  first.sharedSecrets ≠ second.sharedSecrets →
    first.directionKeys ≠ second.directionKeys

theorem transport_keys_ignore_exchange (primitives : Primitives) :
    (∀ run : CompletedRun primitives,
      run.directionKeys = some (publicConstantKeys primitives)) ∧
      ∀ first second : CompletedRun primitives,
        first.sharedSecrets ≠ second.sharedSecrets →
          ¬ KeysFollowExchange first second := by
  refine ⟨CompletedRun.directionKeys_eq, ?_⟩
  intro first second differ follow
  apply follow differ
  rw [first.directionKeys_eq, second.directionKeys_eq]

/-- An initiator with static secret `[1; 32]`, the ephemeral secret
`ephemeral` and a peer whose two keys are those of `[2; 32]`. -/
def sampleRun (ephemeral : Bool) : CompletedRun samplePrimitives :=
  { role := .initiator
    localStatic := false
    calls :=
      [.write ephemeral [] (List.replicate 32 0),
        .read ((samplePublicKey true).toList ++ (samplePublicKey true).toList)
          [],
        .write ephemeral [] (List.replicate 32 0)]
    completed := by cases ephemeral <;> decide }

theorem sampleRun_sharedSecrets_ne :
    (sampleRun false).sharedSecrets ≠ (sampleRun true).sharedSecrets := by
  decide

theorem transport_keys_ignore_exchange_sample :
    ¬ KeysFollowExchange (sampleRun false) (sampleRun true) :=
  (transport_keys_ignore_exchange samplePrimitives).2 _ _
    sampleRun_sharedSecrets_ne

theorem transport_keys_constant_at_sample :
    (sampleRun false).sharedSecrets ≠ (sampleRun true).sharedSecrets ∧
      (sampleRun false).directionKeys = (sampleRun true).directionKeys := by
  refine ⟨sampleRun_sharedSecrets_ne, ?_⟩
  rw [CompletedRun.directionKeys_eq, CompletedRun.directionKeys_eq]

end NoiseHandshake

end NyxNet.Crypto
