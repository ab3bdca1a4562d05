import NyxNet.Lib.ByteParser

/-!
# CLOSE frames

The CLOSE part of `nyx-stream/src/management.rs`: a 16-bit error code, the
length of the reason in one byte, and the reason.
-/

namespace NyxNet.Stream

open ByteParser

/-- CLOSE frame (Type=0x3F). -/
structure CloseFrame where
  /-- Application-defined error code. -/
  code : UInt16
  /-- Optional human-readable reason string (UTF-8). -/
  reason : Bytes
  deriving DecidableEq, Repr

/-- Build CLOSE frame payload. -/
def buildCloseFrame (code : UInt16) (reason : Bytes) : Bytes :=
  (Bytes.beBytes 2 code.toNat).toList ++
    (UInt8.ofNat reason.length :: reason)

/-- Parse CLOSE frame payload. -/
def parseCloseFrame : Parser CloseFrame := fun input => do
  let (input, code) ← beU16 input
  let (input, len) ← u8 input
  let (input, reasonBytes) ← take len.toNat input
  return (input, { code, reason := reasonBytes })

/-- Error code for unsupported required capability (Nyx §8) -/
def errUnsupportedCap : UInt16 := 0x07

/-- Convenience: build CLOSE payload for unsupported required capability. -/
def buildCloseUnsupportedCap (capId : UInt32) : Bytes :=
  let reason := (Bytes.beBytes 4 capId.toNat).toList
  buildCloseFrame errUnsupportedCap reason

namespace CloseFrame

/-- The parser accepts what starts with a built frame, as long as the reason
fits its length byte, and nothing else. -/
theorem parseCloseFrame_eq_ok_iff {input rest : Bytes} {frame : CloseFrame} :
    parseCloseFrame input = .ok (rest, frame) ↔
      frame.reason.length < 256 ∧
        input = buildCloseFrame frame.code frame.reason ++ rest := by
  constructor
  · intro accepted
    obtain ⟨⟨afterCode, code⟩, codeRead, accepted⟩ := bind_eq_ok_iff.mp accepted
    obtain ⟨⟨afterLen, len⟩, lenRead, accepted⟩ := bind_eq_ok_iff.mp accepted
    obtain ⟨⟨rest', reason⟩, reasonRead, ⟨⟩⟩ := bind_eq_ok_iff.mp accepted
    obtain ⟨split, length⟩ := take_eq_ok_iff.mp reasonRead
    rw [beU16_eq_ok_iff] at codeRead
    rw [u8_eq_ok_iff] at lenRead
    refine ⟨?_, ?_⟩
    · rw [length]
      exact len.toNat_lt
    · simp only [buildCloseFrame, length, UInt8.ofNat_toNat, List.append_assoc,
        List.cons_append, codeRead, lenRead, split]
  · obtain ⟨code, reason⟩ := frame
    intro facts
    obtain ⟨short, rfl⟩ := facts
    have len : (UInt8.ofNat reason.length).toNat = reason.length :=
      UInt8.toNat_ofNat_of_lt' short
    simp only [buildCloseFrame, List.append_assoc, List.cons_append]
    refine bind_eq_ok_iff.mpr ⟨(_, code), beU16_eq_ok_iff.mpr rfl, ?_⟩
    refine bind_eq_ok_iff.mpr
      ⟨(_, UInt8.ofNat reason.length), u8_eq_ok_iff.mpr rfl, ?_⟩
    refine bind_eq_ok_iff.mpr ⟨(rest, reason), ?_, rfl⟩
    exact take_eq_ok_iff.mpr ⟨rfl, len.symm⟩

/-- A reason survives the wire exactly when its length fits one byte. -/
theorem close_round_trip_iff (code : UInt16) (reason rest : Bytes) :
    parseCloseFrame (buildCloseFrame code reason ++ rest) =
        .ok (rest, { code, reason }) ↔
      reason.length < 256 := by
  rw [parseCloseFrame_eq_ok_iff]
  constructor
  · intro facts
    exact facts.1
  · intro short
    exact ⟨short, rfl⟩

/-- A reason of 256 bytes is announced as empty and left behind the frame. -/
theorem long_reason_left_behind :
    parseCloseFrame (buildCloseFrame 1 (List.replicate 256 65) ++ []) =
        .ok (List.replicate 256 65, { code := 1, reason := [] }) ∧
      ¬ ∀ (code : UInt16) (reason rest : Bytes),
        parseCloseFrame (buildCloseFrame code reason ++ rest) =
          .ok (rest, { code, reason }) := by
  have parsed :
      parseCloseFrame (buildCloseFrame 1 (List.replicate 256 65) ++ []) =
        .ok (List.replicate 256 65, { code := 1, reason := [] }) := by
    apply parseCloseFrame_eq_ok_iff.mpr
    refine ⟨by decide, ?_⟩
    simp only [buildCloseFrame, List.length_replicate, List.append_nil,
      List.append_assoc]
    rfl
  refine ⟨parsed, ?_⟩
  intro roundTrip
  have read := roundTrip 1 (List.replicate 256 65) []
  rw [parsed] at read
  cases read

/-- The refusal of a capability always fits. -/
theorem parse_buildCloseUnsupportedCap (capId : UInt32) :
    parseCloseFrame (buildCloseUnsupportedCap capId) =
      .ok ([], { code := errUnsupportedCap
                 reason := (Bytes.beBytes 4 capId.toNat).toList }) := by
  apply parseCloseFrame_eq_ok_iff.mpr
  refine ⟨?_, (List.append_nil _).symm⟩
  rw [Vector.length_toList]
  decide

end CloseFrame

end NyxNet.Stream
