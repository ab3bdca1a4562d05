import NyxNet.Daemon.DhtMessage
import NyxNet.Lib.LastWrite

/-!
# Replication of records

What becomes of the `Store` messages that nodes of
`nyx-daemon/src/pure_rust_dht_tcp.rs` send to each other.  A record that
`verify_record` accepts replaces the stored one, and no step looks at the
timestamps of the two: the last record delivered under a key stays.  The
records of `store` and `store_with_routing` are accepted by every node, those
of `store_with_metadata` by none, since they are sent without a signature.
-/

namespace NyxNet.Dht

open LastWrite

variable {crates : Crates}

/-- What a message writes into the storage. -/
def accepted (ed25519 : Ed25519) : DhtMessage → Option (String × DhtRecord)
  | .store record =>
      match verifyRecord ed25519 record with
      | .ok true => some (record.key, record)
      | _ => none
  | _ => none

theorem accepted_of_verified {ed25519 : Ed25519} {record : DhtRecord}
    (verified : verifyRecord ed25519 record = .ok true) :
    accepted ed25519 (.store record) = some (record.key, record) := by
  simp only [accepted, verified]

/-- The storage after a message, also when it is answered by an error. -/
def Node.storageAfter (node : Node crates) (message : DhtMessage) : Storage :=
  match processMessage node message with
  | .ok (_, storage) => storage
  | .error _ => node.storage

theorem storageAfter_eq (node : Node crates) (message : DhtMessage) :
    node.storageAfter message =
      apply node.storage (accepted crates.ed25519 message).toList := by
  cases message with
  | ping nodeId timestamp => rfl
  | findNode targetId requesterId =>
      simp only [Node.storageAfter, processMessage, accepted]
      cases crates.hexDecode targetId with
      | error e => rfl
      | ok decoded =>
          cases length : asArray 32 decoded <;> simp only [length] <;> rfl
  | store record =>
      simp only [Node.storageAfter, processMessage, accepted]
      cases verifyRecord crates.ed25519 record with
      | error e => rfl
      | ok holds => cases holds <;> rfl
  | findValue key requesterId =>
      simp only [Node.storageAfter, processMessage, accepted]
      cases node.storage[key]? <;> rfl
  | pong | findNodeResponse | storeResponse | findValueResponse => rfl

theorem serve_cons (node : Node crates) (message : DhtMessage)
    (messages : List DhtMessage) :
    node.serve (message :: messages) =
      Node.serve { node with storage := node.storageAfter message }
        messages := by
  rw [Node.serve, Node.storageAfter]
  cases processMessage node message <;> rfl

theorem serve_storage (node : Node crates) (messages : List DhtMessage) :
    (node.serve messages).storage =
      apply node.storage (messages.filterMap (accepted crates.ed25519)) := by
  induction messages generalizing node with
  | nil => rfl
  | cons message messages ih =>
      rw [serve_cons, ih, storageAfter_eq, ← apply_append]
      cases write : accepted crates.ed25519 message with
      | none => rw [List.filterMap_cons_none write, Option.toList_none,
          List.nil_append]
      | some entry => rw [List.filterMap_cons_some write, Option.toList_some,
          List.singleton_append]

/-- The records that a key has had when the messages are served, in order. -/
def Node.recordsOf (node : Node crates) (messages : List DhtMessage)
    (key : String) : List DhtRecord :=
  valuesOf node.storage (messages.filterMap (accepted crates.ed25519)) key

/-- Whenever a message replaces a record, the old and the new one are
related. -/
def Node.Replaces (node : Node crates) (messages : List DhtMessage)
    (related : DhtRecord → DhtRecord → Prop) : Prop :=
  ∀ before message, before ++ [message] <+: messages →
    ∀ (key : String) (old new : DhtRecord),
      (node.serve before).storage[key]? = some old →
        (node.serve (before ++ [message])).storage[key]? = some new →
          related old new

def NotOlder (old new : DhtRecord) : Prop :=
  old.timestamp.asNanos ≤ new.timestamp.asNanos

def NotOlderOfOther (old new : DhtRecord) : Prop :=
  old.publisher ≠ new.publisher → NotOlder old new

theorem serve_replaces_iff {related : DhtRecord → DhtRecord → Prop}
    (reflexive : ∀ record, related record record) (node : Node crates)
    (messages : List DhtMessage) :
    node.Replaces messages related ↔
      ∀ key, (node.recordsOf messages key).IsChain related := by
  simp only [Node.recordsOf]
  rw [← replaces_iff reflexive]
  simp only [Node.Replaces, LastWrite.Replaces, serve_storage]

theorem served_last_accepted (crates : Crates) (node : Node crates)
    (messages : List DhtMessage) :
    (∀ key : String, (node.serve messages).storage[key]? =
      (node.recordsOf messages key).getLast?) ∧
    (node.Replaces messages NotOlder ↔
      ∀ key, (node.recordsOf messages key).IsChain NotOlder) ∧
    (node.Replaces messages NotOlderOfOther ↔
      ∀ key, (node.recordsOf messages key).IsChain NotOlderOfOther) := by
  refine ⟨?_, serve_replaces_iff ?_ node messages,
    serve_replaces_iff ?_ node messages⟩
  · intro key
    rw [serve_storage, lookup_apply_valuesOf]
    rfl
  · intro record
    exact le_refl record.timestamp.asNanos
  · intro record different
    exact absurd rfl different

/-- What is assumed of `ed25519_dalek`: a verifying key is read back from its
bytes, and it accepts what its signing key has signed. -/
structure Ed25519.Correct (ed25519 : Ed25519) : Prop where
  readsBack : ∀ keypair,
    ed25519.fromBytes (ed25519.toBytes (ed25519.verifyingKey keypair)) =
      .ok (ed25519.verifyingKey keypair)
  accepts : ∀ keypair message,
    ed25519.verify (ed25519.verifyingKey keypair) message
      (ed25519.sign keypair message) = true

theorem verifyRecord_createSignedRecord {ed25519 : Ed25519}
    (correct : ed25519.Correct) (keypair : ed25519.SigningKey)
    (timestamp : SystemTime) (key : String) (value : Bytes) :
    verifyRecord ed25519
      (createSignedRecord ed25519 keypair timestamp key value) = .ok true := by
  simp only [verifyRecord, createSignedRecord, Option.bind_some,
    asArray_toList, correct.readsBack, correct.accepts]

/-- The record of `store_with_metadata`. -/
def metadataRecord (timestamp : SystemTime) (key : String) (value : Bytes)
    (metadata : StorageMetadata) : DhtRecord where
  key := key
  value := value
  timestamp := timestamp
  ttl := Duration.fromSecs 3600
  signature := none
  publisher := none
  metadata := some metadata

/-- The functions that send `Store` messages. -/
inductive Publication where
  | store
  | storeWithRouting
  | storeWithMetadata (metadata : StorageMetadata)

/-- The record that is sent.  `store_with_routing` calls `store` and signs a
further record for every node that it finds. -/
def Publication.record (ed25519 : Ed25519) (keypair : ed25519.SigningKey)
    (now : SystemTime) (key : String) (value : Bytes) :
    Publication → DhtRecord
  | .store => createSignedRecord ed25519 keypair now key value
  | .storeWithRouting => createSignedRecord ed25519 keypair now key value
  | .storeWithMetadata metadata => metadataRecord now key value metadata

def Publication.isSigned : Publication → Bool
  | .store => true
  | .storeWithRouting => true
  | .storeWithMetadata _ => false

/-- The record is stored under the key, and the sender is told so. -/
def Node.Accepts (node : Node crates) (key : String) (record : DhtRecord) :
    Prop :=
  ∃ storage : Storage, processMessage node (.store record) =
    .ok (.storeResponse true, storage) ∧ storage[key]? = some record

theorem accepts_iff_verified (node : Node crates) (record : DhtRecord) :
    node.Accepts record.key record ↔
      verifyRecord crates.ed25519 record = .ok true := by
  constructor
  · intro accepts
    obtain ⟨storage, processed, -⟩ := accepts
    exact verifyRecord_of_accepted processed
  · intro verified
    refine ⟨node.storage.insert record.key record, ?_, ?_⟩
    · simp only [processMessage, verified]
    · exact Std.ExtHashMap.getElem?_insert_self

theorem publication_accepted_iff (crates : Crates)
    (correct : crates.ed25519.Correct) (keypair : crates.ed25519.SigningKey)
    (now : SystemTime) (key : String) (value : Bytes)
    (publication : Publication) (receiver : Node crates) :
    receiver.Accepts key
        (publication.record crates.ed25519 keypair now key value) ↔
      publication.isSigned = true := by
  cases publication with
  | store | storeWithRouting =>
      have verified := verifyRecord_createSignedRecord correct keypair now key
        value
      have accepts := (accepts_iff_verified receiver _).mpr verified
      exact iff_of_true accepts rfl
  | storeWithMetadata metadata =>
      have refused := accepts_iff_verified receiver
        (metadataRecord now key value metadata)
      simp only [verifyRecord, metadataRecord, Option.bind_none,
        Except.ok.injEq, Bool.false_eq_true, iff_false] at refused
      exact iff_of_false refused Bool.false_ne_true

/-- The text of a record that another publisher signs a minute later. -/
def newerContent : String :=
  "k:[2]:SystemTime \x7b tv_sec: 1700000060, tv_nsec: 0 \x7d:3600s"

def newerTime : SystemTime := SystemTime.ofUnixSecs 1700000060 (by decide)

/-- Signature of that text under the signing key `[2; 32]`. -/
def newerSignature : Vector UInt8 64 :=
  Bytes.leBytes 32
      0x5c560c9a8271f8782f776cdd311adb6120927f67774107bff4b07696c2837cc7 ++
    Bytes.leBytes 32
      0x0ff321a482ea9e1fa698422f19d1db9ae175f7a45b0472f45036ca039438cb22

def newerVerifyingKey : Vector UInt8 32 :=
  Bytes.leBytes 32
    0x94b3c98f5b0ff65da237eeb4918a8dcbcc7e4cc36654a3565f177da80e773981

/-- Ed25519 with the signing keys `[1; 32]` and `[2; 32]` and one signature of
each. -/
def publishersEd25519 : Ed25519 where
  SigningKey := Bool
  VerifyingKey := Bool
  verifyingKey := fun second => second
  toBytes := fun second =>
    if second then newerVerifyingKey else sampleVerifyingKey
  fromBytes := fun bytes =>
    if bytes = newerVerifyingKey then .ok true
    else if bytes = sampleVerifyingKey then .ok false
    else .error "signature error: Cannot decompress Edwards point"
  sign := fun second message =>
    if second = true ∧ message = asBytes newerContent then newerSignature
    else if second = false ∧ message = asBytes sampleContent then
      sampleSignature
    else Vector.replicate 64 0
  verify := fun second message signature =>
    signature =
      if second = true ∧ message = asBytes newerContent then newerSignature
      else if second = false ∧ message = asBytes sampleContent then
        sampleSignature
      else Vector.replicate 64 0

theorem publishersEd25519_correct : publishersEd25519.Correct where
  readsBack := by
    have different : sampleVerifyingKey ≠ newerVerifyingKey := by decide
    intro second
    cases second <;> simp [publishersEd25519, different]
  accepts := by
    intro second message
    exact decide_eq_true rfl

def publishersCrates : Crates where
  sha256 := fun _ => sampleNodeId
  hexDecode := fun _ => .error "Odd number of digits"
  hexEncode := fun _ => ""
  ed25519 := publishersEd25519

def publishersNode : Node publishersCrates where
  routingTable := RoutingTable.new sampleNodeId 20
  storage := ∅
  keypair := false

def olderRecord : DhtRecord :=
  createSignedRecord publishersEd25519 false sampleTime "k" [1]

def newerRecord : DhtRecord :=
  createSignedRecord publishersEd25519 true newerTime "k" [2]

/-- The older record is sent again after the newer one of the other
publisher. -/
def replayedMessages : List DhtMessage :=
  [.store olderRecord, .store newerRecord, .store olderRecord]

theorem replayed_older_replaces_newer :
    ¬ publishersNode.Replaces replayedMessages NotOlder ∧
      ¬ publishersNode.Replaces replayedMessages NotOlderOfOther := by
  have acceptedOlder : accepted publishersEd25519 (.store olderRecord) =
      some ("k", olderRecord) :=
    accepted_of_verified
      (verifyRecord_createSignedRecord publishersEd25519_correct _ _ _ _)
  have acceptedNewer : accepted publishersEd25519 (.store newerRecord) =
      some ("k", newerRecord) :=
    accepted_of_verified
      (verifyRecord_createSignedRecord publishersEd25519_correct _ _ _ _)
  have before : (publishersNode.serve
      [.store olderRecord, .store newerRecord]).storage["k"]? =
        some newerRecord := by
    rw [serve_storage, lookup_apply]
    simp [publishersCrates, acceptedOlder, acceptedNewer, writesTo]
  have after : (publishersNode.serve replayedMessages).storage["k"]? =
      some olderRecord := by
    rw [serve_storage, lookup_apply]
    simp [replayedMessages, publishersCrates, acceptedOlder, acceptedNewer,
      writesTo]
  have older : ¬ NotOlder newerRecord olderRecord := by
    unfold NotOlder
    decide
  have others : newerRecord.publisher ≠ olderRecord.publisher := by
    decide
  constructor
  · intro replaces
    exact older (replaces _ _ (List.prefix_refl _) "k" _ _ before after)
  · intro replaces
    exact older (replaces _ _ (List.prefix_refl _) "k" _ _ before after others)

theorem publication_accepted_iff_sample :
    publishersEd25519.Correct ∧
      (publishersNode.Accepts "k" (Publication.store.record publishersEd25519
          true newerTime "k" [2]) ↔ Publication.store.isSigned = true) :=
  ⟨publishersEd25519_correct,
    publication_accepted_iff publishersCrates publishersEd25519_correct true
      newerTime "k" [2] .store publishersNode⟩

/-- A record with metadata is refused and not stored. -/
theorem metadataRecord_refused :
    publishersEd25519.Correct ∧
    processMessage publishersNode
        (.store (Publication.record publishersEd25519 true newerTime "k" [2]
          (.storeWithMetadata StorageMetadata.default))) =
      .ok (.storeResponse false, publishersNode.storage) ∧
    ¬ publishersNode.Accepts "k"
        (Publication.record publishersEd25519 true newerTime "k" [2]
          (.storeWithMetadata StorageMetadata.default)) := by
  refine ⟨publishersEd25519_correct, rfl, ?_⟩
  intro accepts
  obtain ⟨storage, processed, -⟩ := accepts
  cases processed

end NyxNet.Dht
