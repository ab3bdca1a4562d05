import NyxNet.Stream.Management

/-!
# Capability negotiation

`nyx-stream/src/capability.rs` and `cap_negotiator.rs`.  The CBOR library is a
parameter: how it writes a list of capabilities and what it reads from a byte
string.
-/

namespace NyxNet.Stream

/-- Capability IDs this implementation supports. -/
def localCapIds : List UInt32 := [0x0001, 0x0002]

/-- Bit flag indicating the capability is *required*. -/
def flagRequired : UInt8 := 0x01

/-- Single capability descriptor. -/
structure Capability where
  id : UInt32
  flags : UInt8
  data : Bytes
  deriving DecidableEq, Repr

namespace Capability

def required (id : UInt32) : Capability :=
  { id, flags := flagRequired, data := [] }

def optional (id : UInt32) : Capability := { id, flags := 0, data := [] }

def isRequired (cap : Capability) : Bool := cap.flags &&& flagRequired != 0

end Capability

/-- The two functions of `serde_cbor` at the type of capability lists. -/
structure Cbor (Error : Type) where
  toVec : List Capability → Bytes
  fromSlice : Bytes → Except Error (List Capability)

section Negotiation

variable {Error : Type}

/-- CBOR encode capability list. -/
def encodeCaps (cbor : Cbor Error) (caps : List Capability) : Bytes :=
  cbor.toVec caps

/-- CBOR decode capability list. -/
def decodeCaps (cbor : Cbor Error) (buf : Bytes) :
    Except Error (List Capability) :=
  cbor.fromSlice buf

inductive NegotiationError where
  /-- Peer advertised required capability we do not support. -/
  | unsupported (id : UInt32)
  deriving DecidableEq, Repr

/-- Verify that all required peer capabilities are supported locally. -/
def negotiate (localSupported : List UInt32) :
    List Capability → Except NegotiationError Unit
  | [] => .ok ()
  | cap :: peerCaps =>
      if cap.isRequired && !localSupported.contains cap.id then
        .error (.unsupported cap.id)
      else negotiate localSupported peerCaps

/-- Perform capability negotiation on the list received from a peer. -/
def performCapNegotiation (cbor : Cbor Error) (peerCapsBuf : Bytes) :
    Except Bytes (List Capability) :=
  match decodeCaps cbor peerCapsBuf with
  | .error _ =>
      -- Malformed CBOR is treated as PROTOCOL_VIOLATION.
      .error (buildCloseFrame 0x01
        (Bytes.ofAscii "malformed capability CBOR"))
  | .ok peerCaps =>
      match negotiate localCapIds peerCaps with
      | .ok () => .ok peerCaps
      | .error (.unsupported id) => .error (buildCloseUnsupportedCap id)

namespace Capability

/-- The capability may be ignored, or its id is a known one. -/
def Acceptable (localSupported : List UInt32) (cap : Capability) : Prop :=
  cap.isRequired = true → cap.id ∈ localSupported

/-- The first capability of a list that is not acceptable. -/
structure FirstUnacceptable (localSupported : List UInt32)
    (caps before : List Capability) (cap : Capability)
    (after : List Capability) : Prop where
  split : caps = before ++ cap :: after
  earlier : ∀ other ∈ before, other.Acceptable localSupported
  unacceptable : ¬ cap.Acceptable localSupported

end Capability

open Capability

variable {localSupported : List UInt32} {caps : List Capability}

theorem check_eq_true_iff (cap : Capability) :
    (cap.isRequired && !localSupported.contains cap.id) = true ↔
      ¬ cap.Acceptable localSupported := by
  rw [Acceptable, Bool.and_eq_true, Bool.not_eq_true', Classical.not_imp,
    List.contains_eq_mem, decide_eq_false_iff_not]

theorem negotiate_of_acceptable
    (acceptable : ∀ cap ∈ caps, cap.Acceptable localSupported) :
    negotiate localSupported caps = .ok () := by
  induction caps with
  | nil => rfl
  | cons cap caps ih =>
      have passes : ¬ (cap.isRequired &&
          !localSupported.contains cap.id) = true := by
        rw [check_eq_true_iff, Classical.not_not]
        exact acceptable cap List.mem_cons_self
      rw [negotiate, if_neg passes]
      apply ih
      intro other member
      exact acceptable other (List.mem_cons_of_mem cap member)

/-- The scan stops at the first capability it cannot accept. -/
theorem negotiate_of_first {before after : List Capability}
    {cap : Capability}
    (first : FirstUnacceptable localSupported caps before cap after) :
    negotiate localSupported caps = .error (.unsupported cap.id) := by
  obtain ⟨rfl, earlier, unacceptable⟩ := first
  induction before with
  | nil =>
      rw [List.nil_append, negotiate,
        if_pos ((check_eq_true_iff cap).mpr unacceptable)]
  | cons other before ih =>
      have passes : ¬ (other.isRequired &&
          !localSupported.contains other.id) = true := by
        rw [check_eq_true_iff, Classical.not_not]
        exact earlier other List.mem_cons_self
      rw [List.cons_append, negotiate, if_neg passes]
      apply ih
      intro later member
      exact earlier later (List.mem_cons_of_mem other member)

theorem exists_first_unacceptable
    (refused : ¬ ∀ cap ∈ caps, cap.Acceptable localSupported) :
    ∃ before cap after,
      FirstUnacceptable localSupported caps before cap after := by
  induction caps with
  | nil =>
      refine (refused ?_).elim
      intro cap member
      cases member
  | cons cap caps ih =>
      by_cases acceptable : cap.Acceptable localSupported
      · have later : ¬ ∀ other ∈ caps, other.Acceptable localSupported := by
          intro others
          exact refused (List.forall_mem_cons.mpr ⟨acceptable, others⟩)
        obtain ⟨before, found, after, split, earlier, unacceptable⟩ := ih later
        refine ⟨cap :: before, found, after, ?_, ?_, unacceptable⟩
        · rw [split, List.cons_append]
        · exact List.forall_mem_cons.mpr ⟨acceptable, earlier⟩
      · refine ⟨[], cap, caps, rfl, ?_, acceptable⟩
        intro other member
        cases member

/-- Whatever the peer sends, a refusal is the payload of a CLOSE frame and
nothing more. -/
theorem refusal_is_close_frame (cbor : Cbor Error)
    {peerCapsBuf close : Bytes}
    (refused : performCapNegotiation cbor peerCapsBuf = .error close) :
    ∃ frame, parseCloseFrame close = .ok ([], frame) ∧
      (frame.code = 0x01 ∨ frame.code = errUnsupportedCap) := by
  rw [performCapNegotiation] at refused
  cases decoded : decodeCaps cbor peerCapsBuf with
  | error error =>
      rw [decoded] at refused
      cases refused
      refine ⟨⟨0x01, Bytes.ofAscii "malformed capability CBOR"⟩, ?_,
        Or.inl rfl⟩
      exact CloseFrame.parseCloseFrame_eq_ok_iff.mpr
        ⟨by decide, (List.append_nil _).symm⟩
  | ok peerCaps =>
      rw [decoded] at refused
      simp only at refused
      cases outcome : negotiate localCapIds peerCaps with
      | ok accepted =>
          rw [outcome] at refused
          cases refused
      | error error =>
          obtain ⟨id⟩ := error
          rw [outcome] at refused
          cases refused
          exact ⟨_, CloseFrame.parse_buildCloseUnsupportedCap id, Or.inr rfl⟩

/-- A list is accepted as it was sent exactly when every required capability in
it is known; else the refusal names the first that is not. -/
theorem negotiation_of_encoded (cbor : Cbor Error) (caps : List Capability)
    (roundTrips : decodeCaps cbor (encodeCaps cbor caps) = .ok caps) :
    (performCapNegotiation cbor (encodeCaps cbor caps) = .ok caps ↔
        ∀ cap ∈ caps, cap.isRequired = true → cap.id ∈ localCapIds) ∧
      (¬ (∀ cap ∈ caps, cap.isRequired = true → cap.id ∈ localCapIds) →
        ∃ before cap after close, caps = before ++ cap :: after ∧
          (∀ other ∈ before,
            other.isRequired = true → other.id ∈ localCapIds) ∧
          (cap.isRequired = true ∧ cap.id ∉ localCapIds) ∧
          performCapNegotiation cbor (encodeCaps cbor caps) = .error close ∧
          parseCloseFrame close = .ok ([],
            { code := 0x07
              reason := (Bytes.beBytes 4 cap.id.toNat).toList })) := by
  have refuses :
      ¬ (∀ cap ∈ caps, cap.isRequired = true → cap.id ∈ localCapIds) →
        ∃ before cap after,
          FirstUnacceptable localCapIds caps before cap after ∧
            performCapNegotiation cbor (encodeCaps cbor caps) =
              .error (buildCloseUnsupportedCap cap.id) := by
    intro unknown
    obtain ⟨before, cap, after, first⟩ := exists_first_unacceptable unknown
    refine ⟨before, cap, after, first, ?_⟩
    rw [performCapNegotiation, roundTrips]
    simp only [negotiate_of_first first]
  refine ⟨⟨?_, ?_⟩, ?_⟩
  · intro accepted
    by_contra unknown
    obtain ⟨before, cap, after, -, refused⟩ := refuses unknown
    rw [accepted] at refused
    cases refused
  · intro known
    rw [performCapNegotiation, roundTrips]
    simp only [negotiate_of_acceptable known]
  · intro unknown
    obtain ⟨before, cap, after, first, refused⟩ := refuses unknown
    exact ⟨before, cap, after, _, first.split, first.earlier,
      Classical.not_imp.mp first.unacceptable, refused,
      CloseFrame.parse_buildCloseUnsupportedCap cap.id⟩

end Negotiation

/-- Three capabilities without data; the last one is required and unknown. -/
def sampleCaps : List Capability :=
  [.required 1, .optional 0xBEEF, .required 0xDEADBEEF]

/-- The CBOR map of a capability without data whose id takes these bytes. -/
def sampleEntry (id : Bytes) (flags : UInt8) : Bytes :=
  0xA3 :: 0x62 :: Bytes.ofAscii "id" ++ id ++
    0x65 :: Bytes.ofAscii "flags" ++ [flags] ++
      0x64 :: Bytes.ofAscii "data" ++ [0x40]

/-- The CBOR array of `sampleCaps`. -/
def sampleWire : Bytes :=
  0x83 :: sampleEntry [0x01] 1 ++ sampleEntry [0x19, 0xBE, 0xEF] 0 ++
    sampleEntry [0x1A, 0xDE, 0xAD, 0xBE, 0xEF] 1

def sampleCbor : Cbor Unit where
  toVec _ := sampleWire
  fromSlice buf := if buf = sampleWire then .ok sampleCaps else .error ()

theorem sampleCbor_round_trip :
    decodeCaps sampleCbor (encodeCaps sampleCbor sampleCaps) =
      .ok sampleCaps := by
  change (if sampleWire = sampleWire then Except.ok sampleCaps
    else Except.error ()) = Except.ok sampleCaps
  exact if_pos rfl

theorem negotiation_of_encoded_sample :
    ∃ close, performCapNegotiation sampleCbor sampleWire = .error close ∧
      parseCloseFrame close = .ok ([],
        { code := 0x07, reason := [0xDE, 0xAD, 0xBE, 0xEF] }) := by
  obtain ⟨before, cap, after, close, split, -, unknown, refused, parsed⟩ :=
    (negotiation_of_encoded sampleCbor sampleCaps sampleCbor_round_trip).2
      (by decide)
  have member : cap ∈ sampleCaps := by
    rw [split]
    exact List.mem_append_right before List.mem_cons_self
  have last : cap = .required 0xDEADBEEF := by
    simp only [sampleCaps, List.mem_cons, List.not_mem_nil, or_false] at member
    rcases member with rfl | rfl | rfl
    · exact absurd unknown (by decide)
    · exact absurd unknown (by decide)
    · rfl
  have reason : (Bytes.beBytes 4 cap.id.toNat).toList =
      [0xDE, 0xAD, 0xBE, 0xEF] := by
    rw [last, Bytes.toList_beBytes]
    decide
  rw [reason] at parsed
  exact ⟨close, refused, parsed⟩

end NyxNet.Stream
