import NyxNet.Daemon.RoutingTable
import NyxNet.Lib.DebugFormat

/-!
# Signed records of the distributed hash table

Records are signed over a text made of their key, value, timestamp and time to
live (`create_signed_record` and `verify_record` in
`nyx-daemon/src/pure_rust_dht_tcp.rs`).  The text determines these four fields,
whatever characters the key consists of.
-/

namespace NyxNet.Dht

open DebugFormat

/-- A double, by its bits. -/
structure F64 where
  bits : UInt64
  deriving DecidableEq, Repr

/-- Storage metadata for authentication integration. -/
structure StorageMetadata where
  trustLevel : F64
  tags : List String
  accessPermissions : List String
  contentType : String
  isEncrypted : Bool
  isCompressed : Bool
  priority : UInt8
  sourcePeer : Option String
  replicationFactor : UInt8
  deriving DecidableEq, Repr

def StorageMetadata.default : StorageMetadata where
  trustLevel := ⟨0⟩
  tags := []
  accessPermissions := []
  contentType := ""
  isEncrypted := false
  isCompressed := false
  priority := 0
  sourcePeer := none
  replicationFactor := 0

structure DhtRecord where
  key : String
  value : Bytes
  timestamp : SystemTime
  ttl : Duration
  signature : Option Bytes
  publisher : Option Bytes
  metadata : Option StorageMetadata
  deriving DecidableEq, Repr

/-- The variants of `DhtError` that the modelled functions return. -/
inductive DhtError where
  | serialization (message : String)
  | deserialization (message : String)
  | crypto (message : String)
  | invalidMessage (message : String)
  deriving DecidableEq, Repr

/-- The `ed25519_dalek` crate. -/
structure Ed25519 where
  SigningKey : Type
  VerifyingKey : Type
  verifyingKey : SigningKey → VerifyingKey
  toBytes : VerifyingKey → Vector UInt8 32
  fromBytes : Vector UInt8 32 → Except String VerifyingKey
  sign : SigningKey → Bytes → Vector UInt8 64
  verify : VerifyingKey → Bytes → Vector UInt8 64 → Bool

/-- `"{}:{:?}:{:?}:{:?}"` of key, value, timestamp and time to live. -/
def recordContent (key : String) (value : Bytes) (timestamp : SystemTime)
    (ttl : Duration) : String :=
  String.ofList (((key.toList ++ ':' :: debugBytes value) ++
    ':' :: debugSystemTime timestamp) ++ ':' :: debugDuration ttl)

def defaultTtl : Duration := Duration.fromSecs 3600

variable (ed25519 : Ed25519)

def createSignedRecord (keypair : ed25519.SigningKey) (timestamp : SystemTime)
    (key : String) (value : Bytes) : DhtRecord :=
  let ttl := defaultTtl
  let content := recordContent key value timestamp ttl
  { key := key
    value := value
    timestamp := timestamp
    ttl := ttl
    signature := some (ed25519.sign keypair (asBytes content)).toList
    publisher := some (ed25519.toBytes (ed25519.verifyingKey keypair)).toList
    metadata := none }

/-- The bytes as an array of fixed length, when they have that length. -/
def asArray (length : Nat) (bytes : Bytes) : Option (Vector UInt8 length) :=
  if fits : bytes.length = length then
    some ⟨bytes.toArray, by simpa using fits⟩
  else
    none

@[simp] theorem asArray_toList {length : Nat} (array : Vector UInt8 length) :
    asArray length array.toList = some array := by
  rw [asArray, dif_pos array.length_toList]
  rfl

/-- A record without a publisher or a signature of the right length is
refused; a publisher that is no point on the curve is an error. -/
def verifyRecord (record : DhtRecord) : Except DhtError Bool :=
  match record.publisher.bind (asArray 32) with
  | none => .ok false
  | some pubKeyBytes =>
      match ed25519.fromBytes pubKeyBytes with
      | .error e => .error (.crypto ("Invalid public key: " ++ e))
      | .ok publicKey =>
          match record.signature.bind (asArray 64) with
          | none => .ok false
          | some sigBytes =>
              .ok (ed25519.verify publicKey
                (asBytes (recordContent record.key record.value
                  record.timestamp record.ttl)) sigBytes)

theorem asBytes_injective : Function.Injective asBytes := by
  intro left right same
  apply String.toByteArray_inj.mp
  exact ByteArray.ext (Array.toList_inj.mp same)

/-- Only the key can hold further colons, and it comes first. -/
theorem recordContent_inj {leftKey rightKey : String}
    {leftValue rightValue : Bytes} {leftTime rightTime : SystemTime}
    {leftTtl rightTtl : Duration}
    (same : recordContent leftKey leftValue leftTime leftTtl =
      recordContent rightKey rightValue rightTime rightTtl) :
    leftKey = rightKey ∧ leftValue = rightValue ∧ leftTime = rightTime ∧
      leftTtl = rightTtl := by
  have texts := String.ofList_injective same
  obtain ⟨others, ttls⟩ := split_last (colon_notMem_debugDuration leftTtl)
    (colon_notMem_debugDuration rightTtl) texts
  obtain ⟨fronts, times⟩ := debugSystemTime_append_inj others
  obtain ⟨keys, values⟩ := split_last (colon_notMem_debugBytes leftValue)
    (colon_notMem_debugBytes rightValue) fronts
  exact ⟨String.toList_injective keys, debugBytes_injective values, times,
    debugDuration_injective ttls⟩

/-- A record is verified only when its publisher's key accepts the signature
over its text. -/
theorem verifyRecord_eq_true {ed25519 : Ed25519} {record : DhtRecord}
    (verified : verifyRecord ed25519 record = .ok true) :
    ∃ pubKeyBytes publicKey sigBytes,
      record.publisher.bind (asArray 32) = some pubKeyBytes ∧
      ed25519.fromBytes pubKeyBytes = .ok publicKey ∧
      ed25519.verify publicKey
        (asBytes (recordContent record.key record.value record.timestamp
          record.ttl)) sigBytes = true := by
  unfold verifyRecord at verified
  split at verified
  · cases verified
  · next pubKeyBytes publisher =>
      split at verified
      · cases verified
      · next publicKey decoded =>
          split at verified
          · cases verified
          · next sigBytes signature =>
              have accepted := Except.ok.inj verified
              exact ⟨pubKeyBytes, publicKey, sigBytes, publisher, decoded,
                accepted⟩

end NyxNet.Dht
