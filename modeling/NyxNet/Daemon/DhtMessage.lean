import Mathlib.Data.Set.Insert
import Mathlib.Data.String.Basic
import Mathlib.Order.Compare
import NyxNet.Daemon.DhtRecord

/-!
# Messages of the distributed hash table

The requests a node answers (`process_message` in
`nyx-daemon/src/pure_rust_dht_tcp.rs`) and what it stores for them.  A record
is stored when its publisher's signature holds.  The signature covers neither
the metadata of the record nor their absence, and `get_with_metadata` serves
them.
-/

namespace NyxNet.Dht

inductive DhtMessage where
  | ping (nodeId : NodeId) (timestamp : UInt64)
  | pong (nodeId : NodeId) (timestamp : UInt64)
  | findNode (targetId requesterId : String)
  | findNodeResponse (nodes : List PeerInfo)
  | store (record : DhtRecord)
  | storeResponse (success : Bool)
  | findValue (key requesterId : String)
  | findValueResponse (value : Option Bytes) (nodes : Option (List PeerInfo))
  deriving DecidableEq

-- Named, so that look-ups in the storage are the same term in every module.
instance equivBEqString : EquivBEq String := inferInstance

instance lawfulHashableString : LawfulHashable String := inferInstance

abbrev Storage : Type := Std.ExtHashMap String DhtRecord

/-- The crates that the handling of messages calls, `sha2`, `hex` and
`ed25519_dalek`. -/
structure Crates where
  sha256 : Bytes → Vector UInt8 32
  hexDecode : String → Except String Bytes
  hexEncode : Bytes → String
  ed25519 : Ed25519

variable (crates : Crates)

def calculateNodeId (publicKey : Bytes) : NodeId := crates.sha256 publicKey

def hashKey (key : String) : NodeId := crates.sha256 (asBytes key)

/-- What the connections of a node share. -/
structure Node where
  routingTable : RoutingTable
  storage : Storage
  keypair : crates.ed25519.SigningKey

variable {crates}

/-- The response and the storage afterwards; an error leaves the storage as it
was. -/
def processMessage (node : Node crates) :
    DhtMessage → Except DhtError (DhtMessage × Storage)
  | .ping _ timestamp =>
      let publicKey := crates.ed25519.verifyingKey node.keypair
      .ok (.pong (calculateNodeId crates (crates.ed25519.toBytes publicKey).toList)
        timestamp, node.storage)
  | .findNode targetId _ =>
      match crates.hexDecode targetId with
      | .error e => .error (.invalidMessage ("Invalid target_id: " ++ e))
      | .ok decoded =>
          match asArray 32 decoded with
          | none => .error (.invalidMessage "Invalid target_id length")
          | some targetNodeId =>
              .ok (.findNodeResponse (node.routingTable.findClosestNodes
                crates.sha256 targetNodeId 20), node.storage)
  | .store record =>
      match verifyRecord crates.ed25519 record with
      | .error e => .error e
      | .ok true =>
          .ok (.storeResponse true, node.storage.insert record.key record)
      | .ok false => .ok (.storeResponse false, node.storage)
  | .findValue key _ =>
      match node.storage[key]? with
      | some record =>
          .ok (.findValueResponse (some record.value) none, node.storage)
      | none =>
          .ok (.findValueResponse none (some
            (node.routingTable.findClosestNodes crates.sha256
              (hashKey crates key) 20)), node.storage)
  | _ => .error (.invalidMessage "Unsupported message type")

/-- The peers that are asked for a missing key never give a value. -/
def getWithMetadata (storage : Storage) (key : String) :
    Option (Bytes × StorageMetadata) :=
  storage[key]?.map (fun record =>
    (record.value, record.metadata.getD StorageMetadata.default))

/-- One call of `create_signed_record`. -/
structure SignCall (ed25519 : Ed25519) where
  keypair : ed25519.SigningKey
  timestamp : SystemTime
  key : String
  value : Bytes

variable {ed25519 : Ed25519}

def SignCall.record (call : SignCall ed25519) : DhtRecord :=
  createSignedRecord ed25519 call.keypair call.timestamp call.key call.value

/-- The keys of correct nodes accept only signatures over texts that their
holders signed.  Nothing is said of other keys: there are keys under which one
signature is accepted for every text. -/
def Unforgeable (correct : Set ed25519.VerifyingKey)
    (signed : Set (SignCall ed25519)) : Prop :=
  ∀ publicKey ∈ correct, ∀ message signature,
    ed25519.verify publicKey message signature = true →
      ∃ call ∈ signed, ed25519.verifyingKey call.keypair = publicKey ∧
        message = asBytes (recordContent call.key call.value call.timestamp
          defaultTtl)

/-- The record names the key of a correct node as its publisher. -/
def PublishedBy (correct : Set ed25519.VerifyingKey) (record : DhtRecord) :
    Prop :=
  ∃ pubKeyBytes, record.publisher.bind (asArray 32) = some pubKeyBytes ∧
    ∃ publicKey ∈ correct, ed25519.fromBytes pubKeyBytes = .ok publicKey

/-- The fields that are served agree. -/
structure SameServed (left right : DhtRecord) : Prop where
  key : left.key = right.key
  value : left.value = right.value
  timestamp : left.timestamp = right.timestamp
  ttl : left.ttl = right.ttl
  metadata : left.metadata = right.metadata

/-- The holder of the publisher's key signed a record that is served alike. -/
def SignedByPublisher (signed : Set (SignCall ed25519)) (record : DhtRecord) :
    Prop :=
  ∃ call ∈ signed, ∃ pubKeyBytes,
    record.publisher.bind (asArray 32) = some pubKeyBytes ∧
    ed25519.fromBytes pubKeyBytes = .ok (ed25519.verifyingKey call.keypair) ∧
    SameServed record call.record

theorem verifyRecord_of_accepted {node : Node crates} {record : DhtRecord}
    {storage : Storage}
    (accepted : processMessage node (.store record) =
      .ok (.storeResponse true, storage)) :
    verifyRecord crates.ed25519 record = .ok true := by
  rw [processMessage] at accepted
  split at accepted
  · cases accepted
  · assumption
  · cases accepted

/-- The four fields of the signed text come from a record that the publisher's
holder signed. -/
theorem signed_fields_of_verified {correct : Set ed25519.VerifyingKey}
    {signed : Set (SignCall ed25519)}
    (unforgeable : Unforgeable correct signed) {record : DhtRecord}
    (published : PublishedBy correct record)
    (verified : verifyRecord ed25519 record = .ok true) :
    ∃ call ∈ signed, ∃ pubKeyBytes,
      record.publisher.bind (asArray 32) = some pubKeyBytes ∧
      ed25519.fromBytes pubKeyBytes = .ok (ed25519.verifyingKey call.keypair) ∧
      record.key = call.key ∧ record.value = call.value ∧
      record.timestamp = call.timestamp ∧ record.ttl = defaultTtl := by
  obtain ⟨pubKeyBytes, publicKey, sigBytes, publisher, decoded, holds⟩ :=
    verifyRecord_eq_true verified
  obtain ⟨correctBytes, correctPublisher, correctKey, inCorrect,
    correctDecoded⟩ := published
  rw [publisher, Option.some_inj] at correctPublisher
  rw [← correctPublisher, decoded, Except.ok.injEq] at correctDecoded
  rw [← correctDecoded] at inCorrect
  obtain ⟨call, member, holder, message⟩ :=
    unforgeable publicKey inCorrect _ sigBytes holds
  refine ⟨call, member, pubKeyBytes, publisher, holder ▸ decoded, ?_⟩
  exact recordContent_inj (asBytes_injective message)

/-- All that a message can do to the storage. -/
theorem processMessage_storage {node : Node crates} {message response : DhtMessage}
    {storage : Storage}
    (processed : processMessage node message = .ok (response, storage)) :
    storage = node.storage ∨
      ∃ record, verifyRecord crates.ed25519 record = .ok true ∧
        storage = node.storage.insert record.key record := by
  cases message with
  | ping nodeId timestamp =>
      cases processed
      exact .inl rfl
  | findNode targetId requesterId =>
      rw [processMessage] at processed
      split at processed
      · cases processed
      · split at processed
        · cases processed
        · cases processed
          exact .inl rfl
  | store record =>
      rw [processMessage] at processed
      split at processed
      · cases processed
      · next verified =>
          cases processed
          exact .inr ⟨record, verified, rfl⟩
      · cases processed
        exact .inl rfl
  | findValue key requesterId =>
      rw [processMessage] at processed
      split at processed
      · cases processed
        exact .inl rfl
      · cases processed
        exact .inl rfl
  | pong | findNodeResponse | storeResponse | findValueResponse =>
      cases processed

/-- The node after the messages of any number of connections. -/
def Node.serve (node : Node crates) : List DhtMessage → Node crates
  | [] => node
  | message :: messages =>
      match processMessage node message with
      | .ok (_, storage) => Node.serve { node with storage } messages
      | .error _ => Node.serve node messages

/-- Every record is stored under its own key and verified. -/
def Node.StoresVerified (node : Node crates) : Prop :=
  ∀ key record, node.storage[key]? = some record →
    record.key = key ∧ verifyRecord crates.ed25519 record = .ok true

theorem storesVerified_insert {node : Node crates}
    (verified : node.StoresVerified) {record : DhtRecord}
    (holds : verifyRecord crates.ed25519 record = .ok true) :
    Node.StoresVerified
      { node with storage := node.storage.insert record.key record } := by
  intro key other found
  rw [Std.ExtHashMap.getElem?_insert] at found
  split at found
  · next same =>
      cases found
      exact ⟨LawfulBEq.eq_of_beq same, holds⟩
  · exact verified key other found

theorem serve_storesVerified {node : Node crates}
    (verified : node.StoresVerified) (messages : List DhtMessage) :
    (node.serve messages).StoresVerified := by
  induction messages generalizing node with
  | nil => exact verified
  | cons message messages ih =>
      rw [Node.serve]
      split
      · next response storage processed =>
          apply ih
          rcases processMessage_storage processed with same | stored
          · rw [same]
            exact verified
          · obtain ⟨record, holds, inserted⟩ := stored
            rw [inserted]
            exact storesVerified_insert verified holds
      · exact ih verified

/-- Whatever messages a node has served, the key, the value, the timestamp and
the time to live of what it stores for a correct publisher were signed by the
holder of the publisher's key. -/
theorem serve_signed_fields {correct : Set crates.ed25519.VerifyingKey}
    {signed : Set (SignCall crates.ed25519)}
    (unforgeable : Unforgeable correct signed) {node : Node crates}
    (empty : node.storage = ∅) (messages : List DhtMessage) {key : String}
    {record : DhtRecord} (published : PublishedBy correct record)
    (stored : (node.serve messages).storage[key]? = some record) :
    record.key = key ∧ ∃ call ∈ signed, ∃ pubKeyBytes,
      record.publisher.bind (asArray 32) = some pubKeyBytes ∧
      crates.ed25519.fromBytes pubKeyBytes =
        .ok (crates.ed25519.verifyingKey call.keypair) ∧
      record.key = call.key ∧ record.value = call.value ∧
      record.timestamp = call.timestamp ∧ record.ttl = defaultTtl := by
  have initially : node.StoresVerified := by
    intro key record found
    rw [empty, Std.ExtHashMap.getElem?_empty] at found
    cases found
  obtain ⟨sameKey, verified⟩ :=
    serve_storesVerified initially messages key record stored
  exact ⟨sameKey, signed_fields_of_verified unforgeable published verified⟩

theorem accepted_signedByPublisher_iff (crates : Crates)
    (correct : Set crates.ed25519.VerifyingKey)
    (signed : Set (SignCall crates.ed25519))
    (unforgeable : Unforgeable correct signed)
    (node : Node crates) (record : DhtRecord)
    (published : PublishedBy correct record) (storage : Storage)
    (accepted : processMessage node (.store record) =
      .ok (.storeResponse true, storage)) :
    SignedByPublisher signed record ↔ record.metadata = none := by
  constructor
  · intro authentic
    obtain ⟨call, -, -, -, -, same⟩ := authentic
    exact same.metadata
  · intro noMetadata
    obtain ⟨call, member, pubKeyBytes, publisher, holder, key, value, timestamp,
      ttl⟩ := signed_fields_of_verified unforgeable published
        (verifyRecord_of_accepted accepted)
    exact ⟨call, member, pubKeyBytes, publisher, holder,
      ⟨key, value, timestamp, ttl, noMetadata⟩⟩

/-- The text that is signed for the key `k` with the value `[1]`. -/
def sampleContent : String :=
  "k:[1]:SystemTime \x7b tv_sec: 1700000000, tv_nsec: 0 \x7d:3600s"

/-- Signature of that text under the signing key `[1; 32]`. -/
def sampleSignature : Vector UInt8 64 :=
  Bytes.leBytes 32
      0x74b0724dfb38ccadd3045810a17b6fd5e92620ab0992361de96e0dc9d3ff08a1 ++
    Bytes.leBytes 32
      0x05e66da14df62a4cc53c31ec7e9c83597e0dc42331606b6ae140805cd1d06204

def sampleVerifyingKey : Vector UInt8 32 :=
  Bytes.leBytes 32
    0x5c6f0fb4018874f31b12941dbf0967ca725dba3c2ddb52fd95f10974dde3888a

/-- Ed25519 with the one signing key `[1; 32]` and the one signature. -/
def sampleEd25519 : Ed25519 where
  SigningKey := Unit
  VerifyingKey := Unit
  verifyingKey := fun _ => ()
  toBytes := fun _ => sampleVerifyingKey
  fromBytes := fun bytes =>
    if bytes = sampleVerifyingKey then .ok ()
    else .error "signature error: Cannot decompress Edwards point"
  sign := fun _ message =>
    if message = asBytes sampleContent then sampleSignature
    else Vector.replicate 64 0
  verify := fun _ message signature =>
    message = asBytes sampleContent ∧ signature = sampleSignature

/-- The one key there is belongs to a correct node. -/
def sampleCorrect : Set sampleEd25519.VerifyingKey := Set.univ

/-- SHA-256 of the verifying key is the id of the node. -/
def sampleNodeId : NodeId :=
  Bytes.leBytes 32
    0x7ec9f305658642bf4a1c4e09b5a454e13b93beaa5aa46d94fcfc59bd980f7534

def sampleCrates : Crates where
  sha256 := fun _ => sampleNodeId
  hexDecode := fun _ => .error "Odd number of digits"
  hexEncode := fun _ => ""
  ed25519 := sampleEd25519

def sampleNode : Node sampleCrates where
  routingTable := RoutingTable.new sampleNodeId 20
  storage := ∅
  keypair := ()

def sampleCall : SignCall sampleEd25519 where
  keypair := ()
  timestamp := sampleTime
  key := "k"
  value := [1]

theorem recordContent_sample :
    recordContent "k" [1] sampleTime defaultTtl = sampleContent := by
  decide +kernel

theorem unforgeable_sample : Unforgeable sampleCorrect {sampleCall} := by
  intro publicKey _ message signature holds
  refine ⟨sampleCall, Set.mem_singleton _, rfl, ?_⟩
  rw [(of_decide_eq_true holds).1, ← recordContent_sample]
  rfl

theorem publishedBy_sample (metadata : Option StorageMetadata) :
    PublishedBy sampleCorrect { sampleCall.record with metadata } := by
  refine ⟨sampleVerifyingKey, ?_, (), Set.mem_univ _, ?_⟩
  · exact asArray_toList sampleVerifyingKey
  · simp [sampleEd25519]

/-- Whatever metadata are put into the signed record, it is verified. -/
theorem verifyRecord_sample (metadata : Option StorageMetadata) :
    verifyRecord sampleEd25519 { sampleCall.record with metadata } =
      .ok true := by
  have signature : sampleEd25519.sign () (asBytes sampleContent) =
      sampleSignature := by simp [sampleEd25519]
  have decoded : sampleEd25519.fromBytes sampleVerifyingKey = .ok () := by
    simp [sampleEd25519]
  have holds : sampleEd25519.verify () (asBytes sampleContent)
      sampleSignature = true := by simp [sampleEd25519]
  have content : recordContent sampleCall.record.key sampleCall.record.value
      sampleCall.record.timestamp sampleCall.record.ttl = sampleContent :=
    recordContent_sample
  have signed : sampleCall.record.signature = some sampleSignature.toList := by
    rw [← signature, ← recordContent_sample]
    rfl
  have publisher : sampleCall.record.publisher =
      some sampleVerifyingKey.toList := rfl
  simp only [verifyRecord, publisher, signed, content, Option.bind_some,
    asArray_toList, decoded, holds]

theorem accepted_sample (metadata : Option StorageMetadata) :
    processMessage sampleNode
        (.store { sampleCall.record with metadata }) =
      .ok (.storeResponse true, sampleNode.storage.insert "k"
        { sampleCall.record with metadata }) := by
  have verified : verifyRecord sampleCrates.ed25519
      { sampleCall.record with metadata } = .ok true :=
    verifyRecord_sample metadata
  simp only [processMessage, verified]
  rfl

theorem accepted_signedByPublisher_iff_sample :
    Unforgeable sampleCorrect {sampleCall} ∧
      processMessage sampleNode (.store sampleCall.record) =
        .ok (.storeResponse true,
          sampleNode.storage.insert "k" sampleCall.record) ∧
      (SignedByPublisher {sampleCall} sampleCall.record ↔
        sampleCall.record.metadata = none) :=
  ⟨unforgeable_sample, accepted_sample none,
    accepted_signedByPublisher_iff sampleCrates sampleCorrect {sampleCall}
      unforgeable_sample sampleNode sampleCall.record (publishedBy_sample none)
      _ (accepted_sample none)⟩

/-- Metadata that whoever passes the record on may put into it. -/
def forgedMetadata : StorageMetadata :=
  { StorageMetadata.default with
    trustLevel := ⟨0x3ff0000000000000⟩
    accessPermissions := ["*"] }

/-- The record is accepted with them, and they are served. -/
theorem accepted_forgedMetadata :
    ∃ record storage, Unforgeable sampleCorrect {sampleCall} ∧
      PublishedBy sampleCorrect record ∧
      processMessage sampleNode (.store record) =
        .ok (.storeResponse true, storage) ∧
      getWithMetadata storage "k" = some ([1], forgedMetadata) ∧
      ¬ SignedByPublisher {sampleCall} record := by
  refine ⟨{ sampleCall.record with metadata := some forgedMetadata }, _,
    unforgeable_sample, publishedBy_sample (some forgedMetadata),
    accepted_sample (some forgedMetadata), ?_, ?_⟩
  · rw [getWithMetadata, Std.ExtHashMap.getElem?_insert_self]
    rfl
  · intro authentic
    obtain ⟨call, -, -, -, -, same⟩ := authentic
    cases same.metadata

end NyxNet.Dht
