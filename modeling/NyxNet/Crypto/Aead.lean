import Mathlib.Tactic.Common
import NyxNet.Lib.Bytes
import NyxNet.Lib.Word

/-!
# Keys, nonces and the cipher

The parts of `nyx-crypto/src/aead.rs` that the frame crypter and the context
table share: session keys, the error type and the 96-bit nonce built from a
direction id and a counter.  ChaCha20-Poly1305 itself is a third-party crate
and enters as the parameter `Aead`.
-/

namespace NyxNet.Crypto

/-- 32-byte session key (`noise.rs`). -/
structure SessionKey where
  bytes : Vector UInt8 32
  deriving DecidableEq, Repr

/-- 96-bit AEAD nonce. -/
abbrev Nonce : Type := Vector UInt8 12

/-- Context ID for encryption operations. -/
abbrev ContextId : Type := UInt32

/-- `AeadError`. -/
inductive AeadError where
  | stale
  | replay
  | invalidTag
  | nonceOverflow
  | invalidNonceLength (expected actual : Nat)
  | contextNotFound (contextId : ContextId)
  | encryptionFailed (message : String)
  | decryptionFailed (message : String)
  | invalidKeyLength
  | contextExists (contextId : ContextId)
  deriving DecidableEq, Repr

/-- The text of an `AeadError`. -/
def AeadError.display : AeadError → String
  | .stale => "out of window (stale)"
  | .replay => "replayed packet"
  | .invalidTag => "authentication failed"
  | .nonceOverflow => "nonce overflow: key rotation required"
  | .invalidNonceLength expected actual =>
      s!"invalid nonce length: expected {expected}, got {actual}"
  | .contextNotFound contextId =>
      s!"encryption context not found: {contextId}"
  | .encryptionFailed message => s!"encryption failed: {message}"
  | .decryptionFailed message => s!"decryption failed: {message}"
  | .invalidKeyLength => "invalid key length: expected 32 bytes"
  | .contextExists contextId => s!"context already exists: {contextId}"

/-- The ChaCha20-Poly1305 crate: key, nonce, message and associated data.
`none` is its opaque error. -/
structure Aead where
  encrypt : SessionKey → Nonce → Bytes → Bytes → Option Bytes
  decrypt : SessionKey → Nonce → Bytes → Bytes → Option Bytes

/-- One message sealed under a key: everything the cipher was given and the
ciphertext it returned. -/
structure Sealed where
  nonce : Nonce
  plaintext : Bytes
  aad : Bytes
  ciphertext : Bytes
  deriving DecidableEq, Repr

/-- The ideal cipher of a session: under `key` it opens exactly the triples
that were sealed, to the plaintext they were sealed from. -/
def Aead.IdealFor (aead : Aead) (key : SessionKey) (log : List Sealed) : Prop :=
  ∀ nonce ciphertext aad plaintext,
    aead.decrypt key nonce ciphertext aad = some plaintext ↔
      { nonce, plaintext, aad, ciphertext } ∈ log

/-- The ideal cipher over all keys: it opens exactly what the logged calls
sealed, each under the key it was sealed with. -/
def Aead.Ideal (aead : Aead) (log : List (SessionKey × Sealed)) : Prop :=
  ∀ key nonce ciphertext aad plaintext,
    aead.decrypt key nonce ciphertext aad = some plaintext ↔
      (key, { nonce, plaintext, aad, ciphertext }) ∈ log

/-- ChaCha20-Poly1305 appends a tag of 16 bytes. -/
def Aead.AppendsTag (aead : Aead) : Prop :=
  ∀ key nonce plaintext aad ciphertext,
    aead.encrypt key nonce plaintext aad = some ciphertext →
      ciphertext.length = plaintext.length + 16

namespace NyxAead

/-- `NyxAead::encrypt`.  The error of the crate prints as `Error`. -/
def encrypt (aead : Aead) (key : SessionKey) (nonce : Nonce)
    (plaintext aad : Bytes) : Except AeadError Bytes :=
  match aead.encrypt key nonce plaintext aad with
  | some ciphertext => .ok ciphertext
  | none => .error (.encryptionFailed "Encryption failed: Error")

def decrypt (aead : Aead) (key : SessionKey) (nonce : Nonce)
    (ciphertext aad : Bytes) : Except AeadError Bytes :=
  match aead.decrypt key nonce ciphertext aad with
  | some plaintext => .ok plaintext
  | none => .error (.decryptionFailed "Decryption failed: Error")

theorem encrypt_eq_ok_iff {aead : Aead} {key : SessionKey} {nonce : Nonce}
    {plaintext aad ciphertext : Bytes} :
    encrypt aead key nonce plaintext aad = .ok ciphertext ↔
      aead.encrypt key nonce plaintext aad = some ciphertext := by
  unfold encrypt
  cases aead.encrypt key nonce plaintext aad with
  | none => simp
  | some result => simp

theorem decrypt_eq_ok_iff {aead : Aead} {key : SessionKey} {nonce : Nonce}
    {ciphertext aad plaintext : Bytes} :
    decrypt aead key nonce ciphertext aad = .ok plaintext ↔
      aead.decrypt key nonce ciphertext aad = some plaintext := by
  unfold decrypt
  cases aead.decrypt key nonce ciphertext aad with
  | none => simp
  | some result => simp

end NyxAead

/-- Direction id and counter, both little-endian, as one 96-bit nonce. -/
def directionNonce (direction : UInt32) (counter : UInt64) : Nonce :=
  Bytes.leBytes 4 direction.toNat ++ Bytes.leBytes 8 counter.toNat

/-- A nonce determines its direction and its counter. -/
theorem directionNonce_inj {leftDir rightDir : UInt32}
    {leftCounter rightCounter : UInt64}
    (equality : directionNonce leftDir leftCounter =
      directionNonce rightDir rightCounter) :
    leftDir = rightDir ∧ leftCounter = rightCounter := by
  obtain ⟨dirBytes, counterBytes⟩ := Vector.append_inj equality
  refine ⟨UInt32.toNat_inj.mp ?_, UInt64.toNat_inj.mp ?_⟩
  · exact Bytes.leBytes_injective leftDir.toNat_lt rightDir.toNat_lt dirBytes
  · exact Bytes.leBytes_injective leftCounter.toNat_lt rightCounter.toNat_lt
      counterBytes

/-- Two frames of the session key `[7; 32]`, direction 0 and header `hdr`, as
ChaCha20-Poly1305 seals them. -/
def sampleLog : List Sealed :=
  [{ nonce := directionNonce 0 0
     plaintext := [104, 105]
     aad := [104, 100, 114]
     ciphertext := [95, 237, 21, 224, 119, 28, 114, 154, 240, 74, 0, 219, 154,
       152, 74, 36, 125, 212] },
   { nonce := directionNonce 0 1
     plaintext := [120]
     aad := [104, 100, 114]
     ciphertext := [194, 209, 237, 154, 80, 142, 79, 239, 27, 130, 28, 181,
       159, 17, 22, 191, 245] }]

/-- The cipher restricted to the frames of a log. -/
def tableAead (log : List Sealed) : Aead :=
  { encrypt := fun _ nonce plaintext aad =>
      (log.find? fun entry => entry.nonce = nonce ∧
        entry.plaintext = plaintext ∧ entry.aad = aad).map Sealed.ciphertext
    decrypt := fun _ nonce ciphertext aad =>
      (log.find? fun entry => entry.nonce = nonce ∧
        entry.ciphertext = ciphertext ∧ entry.aad = aad).map
          Sealed.plaintext }

theorem tableAead_idealFor {log : List Sealed} (key : SessionKey)
    (distinct : log.Pairwise fun left right => left.nonce ≠ right.nonce) :
    (tableAead log).IdealFor key log := by
  intro nonce ciphertext aad plaintext
  simp only [tableAead, Option.map_eq_some_iff]
  constructor
  · intro facts
    obtain ⟨entry, found, rfl⟩ := facts
    have matched := List.find?_some found
    simp only [decide_eq_true_eq] at matched
    obtain ⟨rfl, rfl, rfl⟩ := matched
    exact List.mem_of_find?_eq_some found
  · intro member
    induction log with
    | nil => cases member
    | cons head tail ih =>
        rw [List.pairwise_cons] at distinct
        rcases List.mem_cons.mp member with rfl | later
        · exact ⟨{ nonce, plaintext, aad, ciphertext }, by simp, rfl⟩
        · obtain ⟨entry, found, same⟩ := ih distinct.2 later
          refine ⟨entry, ?_, same⟩
          have different : head.nonce ≠ nonce := distinct.1 _ later
          simpa [List.find?_cons, different] using found

end NyxNet.Crypto
