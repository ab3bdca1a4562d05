import NyxNet.Lib.Bytes

/-!
# Third-party primitives of the handshakes

X25519, BLAKE3 and HKDF-SHA256 come from crates and enter as one parameter.
`hkdfExpand` is the wrapper of `nyx-crypto/src/kdf.rs` around the last one.
-/

namespace NyxNet.Crypto

/-- An X25519 public key or shared secret. -/
abbrev Point : Type := Vector UInt8 32

structure Primitives where
  Secret : Type
  publicKey : Secret → Point
  diffieHellman : Secret → Point → Point
  blake3 : Bytes → Vector UInt8 32
  /-- Extract with an empty salt, then expand: keying material, info and
  output length. -/
  hkdfSha256 : Bytes → Bytes → (length : Nat) → Vector UInt8 length

/-- Both ends of an exchange compute the same shared secret. -/
def Primitives.Commutes (primitives : Primitives) : Prop :=
  ∀ left right : primitives.Secret,
    primitives.diffieHellman left (primitives.publicKey right) =
      primitives.diffieHellman right (primitives.publicKey left)

/-- Label domain for HKDF expand operations. -/
inductive KdfLabel where
  | session
  | rekey
  | export
  | custom (label : Bytes)
  deriving DecidableEq, Repr

def KdfLabel.asBytes : KdfLabel → Bytes
  | .session => Bytes.ofAscii "nyx-session"
  | .rekey => Bytes.ofAscii "nyx-rekey"
  | .export => Bytes.ofAscii "nyx-export"
  | .custom label => label

/-- Longer outputs than HKDF allows panic, so the bound is a precondition. -/
def hkdfExpand (primitives : Primitives) (ikm : Bytes) (label : KdfLabel)
    (outLen : Nat) (_fits : outLen ≤ 255 * 32) : Vector UInt8 outLen :=
  primitives.hkdfSha256 ikm label.asBytes outLen

/-- The public keys of the X25519 secrets `[1; 32]` and `[2; 32]`. -/
def samplePublicKey : Bool → Point
  | false => Bytes.leBytes 32
      0x09a2f809442bdcf99d8cb66ab406d913bba95f9f562c77b978c251b69292e0a4
  | true => Bytes.leBytes 32
      0x597d580e8705ba4547340d05859602cd6ec7a51478c1707bec33b6ccd13a8dce

/-- The shared secret of two secrets, whichever of them is known. -/
def sampleShared : Bool → Bool → Point
  | false, false => Bytes.leBytes 32
      0x2c792fbf36f058d29d15798e1480686c3ab690bb8fc7bd9cac5ff1a540d411f3
  | true, true => Bytes.leBytes 32
      0x7a50b5a4a8e18bf8e116d14cca1542ab7a72a63adbc01b7c1dfb5a8156f2b1ac
  | _, _ => Bytes.leBytes 32
      0x53b9c4bf9fe4c33d0c9a2798b681ea8a79f048949cb41e033ce7b149b56ad72e

/-- BLAKE3 at the inputs of the samples: the Noise protocol name and the two
public keys with the peer id suffix. -/
def sampleBlake3 (data : Bytes) : Vector UInt8 32 :=
  if data = Bytes.ofAscii "Noise_XX_25519_ChaChaPoly_BLAKE3" then
    Bytes.leBytes 32
      0x7e28b4ab530c3c90409411de8fb9a5c229c4c046bc6bc1ac1aac5e7ec80f928b
  else if data = (samplePublicKey false).toList ++ Bytes.ofAscii "nyx-p2p-v1"
  then
    Bytes.leBytes 32
      0x3decefc4c35ece9b503537b5b27110a9e2652e1360578bddb6036e904667700f
  else if data = (samplePublicKey true).toList ++ Bytes.ofAscii "nyx-p2p-v1"
  then
    Bytes.leBytes 32
      0x91ed4e577d597798bf3575127cdb8d7552d7c83ca81416c4c19c81273736f2e5
  else Bytes.leBytes 32 0

/-- HKDF of the protocol name's digest under the session label. -/
def sampleHkdf (_ikm _info : Bytes) (length : Nat) : Vector UInt8 length :=
  Bytes.leBytes length
    (0xbe23222431f36804c3b66bff9dba8fe89c71d36bfa59f51ec56c96d51757fb4b *
        2 ^ 256 +
      0x32d0df07716551f56a9154fb1a1022889bf747f0b2b934716b9abc5e2de69aa3)

def samplePrimitives : Primitives :=
  { Secret := Bool
    publicKey := samplePublicKey
    diffieHellman := fun secret point =>
      if point = samplePublicKey false then sampleShared secret false
      else sampleShared secret true
    blake3 := sampleBlake3
    hkdfSha256 := sampleHkdf }

theorem samplePublicKey_ne : samplePublicKey true ≠ samplePublicKey false := by
  decide

theorem samplePrimitives_commutes : samplePrimitives.Commutes := by
  intro left right
  cases left <;> cases right <;>
    simp [samplePrimitives, samplePublicKey_ne, sampleShared]

end NyxNet.Crypto
