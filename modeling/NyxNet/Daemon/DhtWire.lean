import NyxNet.Daemon.DhtMessage

/-!
# The wire of the distributed hash table

`handle_connection` of `nyx-daemon/src/pure_rust_dht_tcp.rs` reads one message
behind a 32-bit length, encoded by `bincode`, and answers in the same way.  Of
the four functions that write requests only `send_message_to_peer` speaks this
format; the others write bare `serde_json` text and expect such text back.
-/

namespace NyxNet.Dht

/-- A serialisation crate at the type of the messages. -/
structure Codec where
  serialize : DhtMessage → Except String Bytes
  deserialize : Bytes → Except String DhtMessage

structure Codecs where
  bincode : Codec
  json : Codec

/-- What is assumed of the two crates: `bincode` reads its encodings back and
needs all of their bytes, and neither crate reads the other one's output. -/
structure Codecs.Lawful (codecs : Codecs) : Prop where
  roundTrip : ∀ {message data}, codecs.bincode.serialize message = .ok data →
    codecs.bincode.deserialize data = .ok message
  complete : ∀ {message data}, codecs.bincode.serialize message = .ok data →
    ∀ count < data.length,
      codecs.bincode.deserialize (data.take count) ≠ .ok message
  jsonAsBincode : ∀ {message text}, codecs.json.serialize message = .ok text →
    ∀ part, part <:+: text → codecs.bincode.deserialize part ≠ .ok message
  bincodeAsJson : ∀ {message data},
    codecs.bincode.serialize message = .ok data →
      ∀ count, codecs.json.deserialize ((Bytes.frame 4 data).take count) ≠
        .ok message

variable (codecs : Codecs)

/-- The encoding of the message has a length that fits its prefix. -/
def Codecs.Fits (message : DhtMessage) : Prop :=
  ∃ data, codecs.bincode.serialize message = .ok data ∧
    data.length < 4294967296

/-- Writes a message behind its length; `as u32` reduces the length. -/
def writeMessage (message : DhtMessage) : Except DhtError Bytes :=
  match codecs.bincode.serialize message with
  | .error e => .error (.serialization e)
  | .ok data => .ok (Bytes.frame 4 data)

/-- Reads a length and so many bytes.  There is no result while `read_exact`
waits for bytes that have not been written. -/
def readMessage (stream : Bytes) : Option (Except DhtError DhtMessage) :=
  match Bytes.readFrame 4 stream with
  | none => none
  | some (data, _) =>
      match codecs.bincode.deserialize data with
      | .error e => some (.error (.serialization e))
      | .ok message => some (.ok message)

/-- What has become of a connection after the bytes that were written to it. -/
inductive Connection where
  | waiting
  | failed (error : DhtError) (storage : Storage)
  | answered (message response : DhtMessage) (reply : Bytes) (storage : Storage)

variable {crates : Crates}

def handleConnection (node : Node crates) (stream : Bytes) : Connection :=
  match readMessage codecs stream with
  | none => .waiting
  | some (.error e) => .failed e node.storage
  | some (.ok message) =>
      match processMessage node message with
      | .error e => .failed e node.storage
      | .ok (response, storage) =>
          match writeMessage codecs response with
          | .error e => .failed e storage
          | .ok reply => .answered message response reply storage

structure Client (crates : Crates) where
  keypair : crates.ed25519.SigningKey
  localAddr : String

/-- A call of a function that writes a request to a peer. -/
inductive ClientCall where
  | sendMessageToPeer (message : DhtMessage)
  | queryPeerForClosestNodes (targetId : String)
  | queryPeerForValue (key : String)
  | storeOnPeer (key : String) (value : Bytes)

def ClientCall.isSendMessageToPeer : ClientCall → Bool
  | .sendMessageToPeer _ => true
  | _ => false

/-- The message that a call is to bring to the peer. -/
def Client.request (client : Client crates) (now : SystemTime) :
    ClientCall → DhtMessage
  | .sendMessageToPeer message => message
  | .queryPeerForClosestNodes targetId => .findNode targetId "anonymous"
  | .queryPeerForValue key =>
      .findValue key (crates.hexEncode (asBytes client.localAddr))
  | .storeOnPeer key value =>
      .store (createSignedRecord crates.ed25519 client.keypair now key value)

def writeJson (message : DhtMessage) : Except DhtError Bytes :=
  match codecs.json.serialize message with
  | .error e => .error (.serialization e)
  | .ok text => .ok text

/-- The bytes that a call writes. -/
def Client.write (client : Client crates) (now : SystemTime)
    (call : ClientCall) : Except DhtError Bytes :=
  match call with
  | .sendMessageToPeer message => writeMessage codecs message
  | .queryPeerForClosestNodes _ | .queryPeerForValue _ | .storeOnPeer _ _ =>
      writeJson codecs (client.request now call)

/-- One `read` into a buffer; `chunk` bytes have arrived by then. -/
def readJson (size chunk : Nat) (reply : Bytes) : Except DhtError DhtMessage :=
  match codecs.json.deserialize (reply.take (min chunk size)) with
  | .error e => .error (.deserialization e)
  | .ok message => .ok message

/-- The message that a call takes from the reply of the peer. -/
def ClientCall.readResponse (reply : Bytes) (chunk : Nat) :
    ClientCall → Option (Except DhtError DhtMessage)
  | .sendMessageToPeer _ => readMessage codecs reply
  | .queryPeerForClosestNodes _ => some (readJson codecs 4096 chunk reply)
  | .queryPeerForValue _ => some (readJson codecs 8192 chunk reply)
  | .storeOnPeer _ _ => some (readJson codecs 1024 chunk reply)

variable {codecs}

theorem readMessage_eq_ok {stream : Bytes} {message : DhtMessage}
    (read : readMessage codecs stream = some (.ok message)) :
    ∃ data rest, Bytes.readFrame 4 stream = some (data, rest) ∧
      codecs.bincode.deserialize data = .ok message := by
  unfold readMessage at read
  split at read
  · cases read
  · next data rest framed =>
      split at read
      · cases read
      · next decoded deserialized =>
          cases read
          exact ⟨data, rest, framed, deserialized⟩

theorem writeMessage_eq_ok {message : DhtMessage} {written : Bytes}
    (wrote : writeMessage codecs message = .ok written) :
    ∃ data, codecs.bincode.serialize message = .ok data ∧
      written = Bytes.frame 4 data := by
  unfold writeMessage at wrote
  split at wrote
  · cases wrote
  · next data serialized =>
      cases wrote
      exact ⟨data, serialized, rfl⟩

theorem readFrame_written (data : Bytes) :
    Bytes.readFrame 4 (Bytes.frame 4 data) =
      some (data.take (data.length % 4294967296),
        data.drop (data.length % 4294967296)) := by
  have read := Bytes.readFrame_frame_mod 4 data []
  rwa [List.append_nil, List.append_nil] at read

/-- A framed message is read back when its length fits the prefix, and only
then: a reduced length cuts the encoding. -/
theorem readMessage_writeMessage (laws : codecs.Lawful) {message : DhtMessage}
    {written : Bytes} (wrote : writeMessage codecs message = .ok written) :
    readMessage codecs written = some (.ok message) ↔ codecs.Fits message := by
  obtain ⟨data, serialized, rfl⟩ := writeMessage_eq_ok wrote
  constructor
  · intro read
    refine ⟨data, serialized, ?_⟩
    by_contra tooLong
    obtain ⟨part, rest, framed, deserialized⟩ := readMessage_eq_ok read
    rw [readFrame_written] at framed
    cases framed
    refine laws.complete serialized (data.length % 4294967296) ?_ deserialized
    have reduced := Nat.mod_lt data.length (show 0 < 4294967296 by decide)
    omega
  · intro fits
    obtain ⟨other, otherSerialized, short⟩ := fits
    have same : data = other := by
      rw [serialized] at otherSerialized
      exact Except.ok.inj otherSerialized
    subst same
    unfold readMessage
    rw [readFrame_written, Nat.mod_eq_of_lt short, List.take_length]
    simp only [laws.roundTrip serialized]

/-- Whatever the server takes for a length, it does not read the message from
bare text. -/
theorem readMessage_writeJson (laws : codecs.Lawful) {message : DhtMessage}
    {written : Bytes} (wrote : writeJson codecs message = .ok written) :
    readMessage codecs written ≠ some (.ok message) := by
  intro read
  obtain ⟨part, rest, framed, deserialized⟩ := readMessage_eq_ok read
  unfold writeJson at wrote
  split at wrote
  · cases wrote
  · next text serialized =>
      cases wrote
      exact laws.jsonAsBincode serialized part
        (Bytes.infix_of_readFrame framed) deserialized

theorem readJson_writeMessage (laws : codecs.Lawful) {message : DhtMessage}
    {reply : Bytes} (wrote : writeMessage codecs message = .ok reply)
    (size chunk : Nat) : readJson codecs size chunk reply ≠ .ok message := by
  intro read
  obtain ⟨data, serialized, rfl⟩ := writeMessage_eq_ok wrote
  unfold readJson at read
  split at read
  · cases read
  · next decoded deserialized =>
      cases read
      exact laws.bincodeAsJson serialized _ deserialized

theorem writeMessage_of_answered {node : Node crates} {stream reply : Bytes}
    {message response : DhtMessage} {storage : Storage}
    (answered : handleConnection codecs node stream =
      .answered message response reply storage) :
    writeMessage codecs response = .ok reply := by
  unfold handleConnection at answered
  split at answered
  · cases answered
  · cases answered
  · split at answered
    · cases answered
    · split at answered
      · cases answered
      · cases answered
        assumption

theorem readRequest_iff (laws : codecs.Lawful) {client : Client crates}
    {now : SystemTime} {call : ClientCall} {written : Bytes}
    (wrote : client.write codecs now call = .ok written) :
    readMessage codecs written = some (.ok (client.request now call)) ↔
      call.isSendMessageToPeer = true ∧
        codecs.Fits (client.request now call) := by
  have bare : writeJson codecs (client.request now call) = .ok written →
      call.isSendMessageToPeer = false →
        (readMessage codecs written = some (.ok (client.request now call)) ↔
          call.isSendMessageToPeer = true ∧
            codecs.Fits (client.request now call)) := by
    intro wroteJson other
    constructor
    · intro read
      exact absurd read (readMessage_writeJson laws wroteJson)
    · intro condition
      rw [other] at condition
      cases condition.1
  cases call with
  | sendMessageToPeer message =>
      have read := readMessage_writeMessage laws wrote
      exact read.trans (iff_and_self.mpr fun _ => rfl)
  | queryPeerForClosestNodes targetId => exact bare wrote rfl
  | queryPeerForValue key => exact bare wrote rfl
  | storeOnPeer key value => exact bare wrote rfl

theorem readResponse_iff (laws : codecs.Lawful) (call : ClientCall)
    {response : DhtMessage} {reply : Bytes}
    (wrote : writeMessage codecs response = .ok reply) :
    (∀ chunk, call.readResponse codecs reply chunk = some (.ok response)) ↔
      call.isSendMessageToPeer = true ∧ codecs.Fits response := by
  have bare : ∀ size,
      (∀ chunk, some (readJson codecs size chunk reply) =
          some (.ok response)) ↔
        false = true ∧ codecs.Fits response := by
    intro size
    constructor
    · intro read
      exact absurd (Option.some.inj (read 0))
        (readJson_writeMessage laws wrote size 0)
    · intro condition
      cases condition.1
  cases call with
  | sendMessageToPeer message =>
      have read := readMessage_writeMessage laws wrote
      constructor
      · intro readAll
        exact ⟨rfl, read.mp (readAll 0)⟩
      · intro condition chunk
        exact read.mpr condition.2
  | queryPeerForClosestNodes targetId => exact bare 4096
  | queryPeerForValue key => exact bare 8192
  | storeOnPeer key value => exact bare 1024

theorem writeMessage_of_fits {message : DhtMessage}
    (fits : codecs.Fits message) :
    ∃ written, writeMessage codecs message = .ok written := by
  obtain ⟨data, serialized, -⟩ := fits
  exact ⟨Bytes.frame 4 data, by rw [writeMessage, serialized]⟩

/-- A call of `send_message_to_peer` returns what the peer makes of the
message. -/
theorem sendMessageToPeer_served (laws : codecs.Lawful) {node : Node crates}
    {message response : DhtMessage} {storage : Storage}
    (processed : processMessage node message = .ok (response, storage))
    (requestFits : codecs.Fits message) (responseFits : codecs.Fits response) :
    ∃ written reply, writeMessage codecs message = .ok written ∧
      handleConnection codecs node written =
        .answered message response reply storage ∧
      ∀ chunk, (ClientCall.sendMessageToPeer message).readResponse codecs reply
        chunk = some (.ok response) := by
  obtain ⟨written, wrote⟩ := writeMessage_of_fits requestFits
  obtain ⟨reply, replied⟩ := writeMessage_of_fits responseFits
  have read := (readMessage_writeMessage laws wrote).mpr requestFits
  refine ⟨written, reply, wrote, ?_, ?_⟩
  · rw [handleConnection, read]
    simp only [processed, replied]
  · exact (readResponse_iff laws _ replied).mpr ⟨rfl, responseFits⟩

theorem wire_agreement_iff (codecs : Codecs) (laws : codecs.Lawful)
    (crates : Crates) (client : Client crates) (now : SystemTime)
    (call : ClientCall) (written : Bytes)
    (wrote : client.write codecs now call = .ok written) :
    (readMessage codecs written = some (.ok (client.request now call)) ↔
      call.isSendMessageToPeer = true ∧
        codecs.Fits (client.request now call)) ∧
    ∀ (node : Node crates) (stream : Bytes) (message response : DhtMessage)
      (reply : Bytes) (storage : Storage),
      handleConnection codecs node stream =
          .answered message response reply storage →
        ((∀ chunk, call.readResponse codecs reply chunk =
            some (.ok response)) ↔
          call.isSendMessageToPeer = true ∧ codecs.Fits response) := by
  refine ⟨readRequest_iff laws wrote, ?_⟩
  intro node stream message response reply storage answered
  exact readResponse_iff laws call (writeMessage_of_answered answered)

def samplePing : DhtMessage := .ping (Vector.replicate 32 7) 1700000000

def samplePong : DhtMessage := .pong sampleNodeId 1700000000

def sampleFindNode : DhtMessage := .findNode "ab" "anonymous"

/-- `bincode` of a ping or a pong: variant, node id and timestamp. -/
def sampleEncoding (variant : UInt8) (nodeId : NodeId) : Bytes :=
  [variant, 0, 0, 0] ++ nodeId.toList ++ (Bytes.leBytes 8 1700000000).toList

def samplePingBytes : Bytes := sampleEncoding 0 (Vector.replicate 32 7)

def samplePongBytes : Bytes := sampleEncoding 1 sampleNodeId

def sampleText : Bytes :=
  asBytes ("\x7b\"FindNode\":\x7b\"target_id\":\"ab\"," ++
    "\"requester_id\":\"anonymous\"\x7d\x7d")

/-- `bincode` at the ping and the pong, `serde_json` at the request for
nodes. -/
def sampleCodecs : Codecs where
  bincode :=
    { serialize := fun message =>
        if message = samplePing then .ok samplePingBytes
        else if message = samplePong then .ok samplePongBytes
        else .error "not in the sample"
      deserialize := fun data =>
        if data = samplePingBytes then .ok samplePing
        else if data = samplePongBytes then .ok samplePong
        else .error "io error: unexpected end of file" }
  json :=
    { serialize := fun message =>
        if message = sampleFindNode then .ok sampleText
        else .error "not in the sample"
      deserialize := fun text =>
        if text = sampleText then .ok sampleFindNode
        else .error "expected value at line 1 column 1" }

theorem sample_serialized {message : DhtMessage} {data : Bytes}
    (serialized : sampleCodecs.bincode.serialize message = .ok data) :
    (message = samplePing ∧ data = samplePingBytes) ∨
      (message = samplePong ∧ data = samplePongBytes) := by
  simp only [sampleCodecs] at serialized
  split at serialized
  · next ping => exact .inl ⟨ping, (Except.ok.inj serialized).symm⟩
  · split at serialized
    · next pong => exact .inr ⟨pong, (Except.ok.inj serialized).symm⟩
    · cases serialized

theorem sample_deserialized {message : DhtMessage} {data : Bytes}
    (deserialized : sampleCodecs.bincode.deserialize data = .ok message) :
    data.length = 44 ∧ (message = samplePing ∨ message = samplePong) := by
  simp only [sampleCodecs] at deserialized
  split at deserialized
  · next ping =>
      cases deserialized
      exact ⟨ping ▸ by decide, .inl rfl⟩
  · split at deserialized
    · next pong =>
        cases deserialized
        exact ⟨pong ▸ by decide, .inr rfl⟩
    · cases deserialized

theorem sampleCodecs_lawful : sampleCodecs.Lawful := by
  constructor
  · intro message data serialized
    rcases sample_serialized serialized with ping | pong
    · rw [ping.1, ping.2]
      simp [sampleCodecs]
    · have apart : samplePongBytes ≠ samplePingBytes := by decide
      rw [pong.1, pong.2]
      simp [sampleCodecs, apart]
  · intro message data serialized count short deserialized
    have length := (sample_deserialized deserialized).1
    have whole : data.length = 44 := by
      rcases sample_serialized serialized with ping | pong
      · exact ping.2 ▸ by decide
      · exact pong.2 ▸ by decide
    rw [List.length_take] at length
    omega
  · intro message text serialized part partOf deserialized
    simp only [sampleCodecs] at serialized
    split at serialized
    · next findNode =>
        rw [findNode] at deserialized
        rcases (sample_deserialized deserialized).2 with ping | pong
        · cases ping
        · cases pong
    · cases serialized
  · intro message data serialized count deserialized
    simp only [sampleCodecs] at deserialized
    split at deserialized
    · cases deserialized
      rcases sample_serialized serialized with ping | pong
      · cases ping.1
      · cases pong.1
    · cases deserialized

def sampleClient : Client sampleCrates where
  keypair := ()
  localAddr := "127.0.0.1:4001"

theorem sampleClient_wrote :
    sampleClient.write sampleCodecs sampleTime (.sendMessageToPeer samplePing) =
      .ok (Bytes.frame 4 samplePingBytes) := by
  simp [Client.write, writeMessage, sampleCodecs]

theorem sampleCodecs_fits_ping : sampleCodecs.Fits samplePing :=
  ⟨samplePingBytes, by simp [sampleCodecs], by decide⟩

theorem sampleCodecs_pong :
    sampleCodecs.bincode.serialize samplePong = .ok samplePongBytes := by
  have apart : samplePong ≠ samplePing := nofun
  simp [sampleCodecs, apart]

theorem wire_agreement_iff_sample :
    readMessage sampleCodecs (Bytes.frame 4 samplePingBytes) =
        some (.ok samplePing) ∧
      handleConnection sampleCodecs sampleNode
          (Bytes.frame 4 samplePingBytes) =
        .answered samplePing samplePong (Bytes.frame 4 samplePongBytes)
          sampleNode.storage ∧
      ∀ chunk, (ClientCall.sendMessageToPeer samplePing).readResponse
        sampleCodecs (Bytes.frame 4 samplePongBytes) chunk =
          some (.ok samplePong) := by
  obtain ⟨request, response⟩ := wire_agreement_iff sampleCodecs
    sampleCodecs_lawful sampleCrates sampleClient sampleTime
    (.sendMessageToPeer samplePing) (Bytes.frame 4 samplePingBytes)
    sampleClient_wrote
  have read := request.mpr ⟨rfl, sampleCodecs_fits_ping⟩
  have processed : processMessage sampleNode samplePing =
      .ok (samplePong, sampleNode.storage) := rfl
  have replied : writeMessage sampleCodecs samplePong =
      .ok (Bytes.frame 4 samplePongBytes) := by
    rw [writeMessage, sampleCodecs_pong]
  have answered : handleConnection sampleCodecs sampleNode
      (Bytes.frame 4 samplePingBytes) =
        .answered samplePing samplePong (Bytes.frame 4 samplePongBytes)
          sampleNode.storage := by
    rw [handleConnection, read]
    simp only [Client.request, processed, replied]
  refine ⟨read, answered, ?_⟩
  exact (response _ _ _ _ _ _ answered).mpr
    ⟨rfl, samplePongBytes, sampleCodecs_pong, by decide⟩

/-- The server takes the first letters of the text for the length of a request
of two gigabytes and waits for them, while the client waits for an answer. -/
theorem queryPeerForClosestNodes_waits :
    sampleCodecs.Lawful ∧
    sampleClient.write sampleCodecs sampleTime
        (.queryPeerForClosestNodes "ab") = .ok sampleText ∧
      sampleClient.request sampleTime (.queryPeerForClosestNodes "ab") =
        sampleFindNode ∧
      readMessage sampleCodecs sampleText ≠ some (.ok sampleFindNode) ∧
      handleConnection sampleCodecs sampleNode sampleText = .waiting := by
  have wrote : sampleClient.write sampleCodecs sampleTime
      (.queryPeerForClosestNodes "ab") = .ok sampleText := by
    simp [Client.write, Client.request, writeJson, sampleCodecs, sampleFindNode]
  have unread : Bytes.readFrame 4 sampleText = none := by decide +kernel
  have waits : readMessage sampleCodecs sampleText = none := by
    rw [readMessage, unread]
  refine ⟨sampleCodecs_lawful, wrote, rfl, ?_, ?_⟩
  · rw [waits]
    exact nofun
  · rw [handleConnection, waits]

end NyxNet.Dht
