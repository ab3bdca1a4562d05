import NyxNet.Lib.ByteParser

/-!
# STREAM frames

`nyx-stream/src/stream_frame.rs`: stream id, offset, a fin byte, the length of
the data and the data, with all integers big-endian.
-/

namespace NyxNet.Stream

open ByteParser

structure StreamFrame where
  streamId : UInt32
  offset : UInt32
  fin : Bool
  data : Bytes
  deriving DecidableEq, Repr

def parseStreamFrame : Parser StreamFrame := fun input => do
  let (input, streamId) ← beU32 input
  let (input, offset) ← beU32 input
  let (input, finByte) ← u8 input
  let fin := finByte != 0
  let (input, dataLen) ← beU32 input
  let (input, data) ← take dataLen.toNat input
  return (input, { streamId, offset, fin, data })

def buildStreamFrame (frame : StreamFrame) : Bytes :=
  (Bytes.beBytes 4 frame.streamId.toNat).toList ++
    ((Bytes.beBytes 4 frame.offset.toNat).toList ++
      ((if frame.fin then 1 else 0) ::
        ((Bytes.beBytes 4 (UInt32.ofNat frame.data.length).toNat).toList ++
          frame.data)))

namespace StreamFrame

/-- The encoding with an arbitrary fin byte. -/
def encodeWith (finByte : UInt8) (frame : StreamFrame) : Bytes :=
  (Bytes.beBytes 4 frame.streamId.toNat).toList ++
    ((Bytes.beBytes 4 frame.offset.toNat).toList ++
      (finByte ::
        ((Bytes.beBytes 4 frame.data.length).toList ++ frame.data)))

/-- The accepted inputs: any fin byte other than 0 stands for `true`. -/
theorem parseStreamFrame_eq_ok_iff {input rest : Bytes}
    {frame : StreamFrame} :
    parseStreamFrame input = .ok (rest, frame) ↔
      frame.data.length < 2 ^ 32 ∧
        ∃ finByte : UInt8, frame.fin = (finByte != 0) ∧
          input = frame.encodeWith finByte ++ rest := by
  constructor
  · intro accepted
    obtain ⟨⟨afterId, streamId⟩, idRead, accepted⟩ := bind_eq_ok_iff.mp accepted
    obtain ⟨⟨afterOffset, offset⟩, offsetRead, accepted⟩ :=
      bind_eq_ok_iff.mp accepted
    obtain ⟨⟨afterFin, finByte⟩, finRead, accepted⟩ :=
      bind_eq_ok_iff.mp accepted
    obtain ⟨⟨afterLength, dataLen⟩, lengthRead, accepted⟩ :=
      bind_eq_ok_iff.mp accepted
    obtain ⟨⟨rest', data⟩, dataRead, ⟨⟩⟩ := bind_eq_ok_iff.mp accepted
    obtain ⟨split, length⟩ := take_eq_ok_iff.mp dataRead
    rw [beU32_eq_ok_iff] at idRead offsetRead lengthRead
    rw [u8_eq_ok_iff] at finRead
    refine ⟨?_, finByte, rfl, ?_⟩
    · rw [length]
      exact dataLen.toNat_lt
    · simp only [encodeWith, length, List.append_assoc, List.cons_append,
        idRead, offsetRead, finRead, lengthRead, split]
  · obtain ⟨streamId, offset, fin, data⟩ := frame
    intro facts
    obtain ⟨short, finByte, ⟨⟩, rfl⟩ := facts
    have dataLen : (UInt32.ofNat data.length).toNat = data.length :=
      UInt32.toNat_ofNat_of_lt' short
    simp only [encodeWith, List.append_assoc, List.cons_append]
    refine bind_eq_ok_iff.mpr ⟨(_, streamId), beU32_eq_ok_iff.mpr rfl, ?_⟩
    refine bind_eq_ok_iff.mpr ⟨(_, offset), beU32_eq_ok_iff.mpr rfl, ?_⟩
    refine bind_eq_ok_iff.mpr ⟨(_, finByte), u8_eq_ok_iff.mpr rfl, ?_⟩
    refine bind_eq_ok_iff.mpr
      ⟨(data ++ rest, UInt32.ofNat data.length), ?_, ?_⟩
    · rw [beU32_eq_ok_iff, dataLen]
    · refine bind_eq_ok_iff.mpr ⟨(rest, data), ?_, rfl⟩
      exact take_eq_ok_iff.mpr ⟨rfl, dataLen.symm⟩

theorem buildStreamFrame_eq {frame : StreamFrame}
    (short : frame.data.length < 2 ^ 32) :
    buildStreamFrame frame =
      frame.encodeWith (if frame.fin then 1 else 0) := by
  rw [buildStreamFrame, encodeWith, UInt32.toNat_ofNat_of_lt' short]

theorem parseStreamFrame_build {frame : StreamFrame}
    (short : frame.data.length < 2 ^ 32) (rest : Bytes) :
    parseStreamFrame (buildStreamFrame frame ++ rest) = .ok (rest, frame) := by
  rw [buildStreamFrame_eq short]
  refine parseStreamFrame_eq_ok_iff.mpr ⟨short, _, ?_, rfl⟩
  cases frame.fin with
  | false => rfl
  | true => rfl

/-- The fin byte is the byte behind the two words. -/
theorem set_buildStreamFrame {frame : StreamFrame}
    (short : frame.data.length < 2 ^ 32) (finByte : UInt8) :
    (buildStreamFrame frame).set 8 finByte = frame.encodeWith finByte := by
  rw [buildStreamFrame_eq short]
  simp [encodeWith]

/-- Encodings in sequence are read back as they were, and an accepted input is
the encoding of what was read except for the choice of a fin byte. -/
theorem stream_frames_self_delimiting :
    (∀ frames : List StreamFrame,
      (∀ frame ∈ frames, frame.data.length < 2 ^ 32) →
        ∀ fuel, frames.length ≤ fuel →
          many parseStreamFrame fuel (frames.flatMap buildStreamFrame) =
            (frames, [])) ∧
      ∀ (input rest : Bytes) (frame : StreamFrame),
        parseStreamFrame input = .ok (rest, frame) →
          ∃ finByte : UInt8, (finByte ≠ 0 ↔ frame.fin = true) ∧
            input = (buildStreamFrame frame).set 8 finByte ++ rest := by
  constructor
  · intro frames short fuel enough
    apply many_flatMap rfl frames _ enough
    intro frame member rest
    exact parseStreamFrame_build (short frame member) rest
  · intro input rest frame accepted
    obtain ⟨short, finByte, fin, rfl⟩ :=
      parseStreamFrame_eq_ok_iff.mp accepted
    refine ⟨finByte, ?_, ?_⟩
    · rw [fin, bne_iff_ne]
    · rw [set_buildStreamFrame short]

/-- The data of the first frame starts like a frame of its own. -/
def sampleFrames : List StreamFrame :=
  [{ streamId := 7, offset := 0, fin := false
     data := [0, 0, 0, 9, 0, 0, 0, 0, 1, 0, 0, 0, 0] },
   { streamId := 9, offset := 13, fin := true, data := [] }]

theorem stream_frames_self_delimiting_sample :
    many parseStreamFrame 2 (sampleFrames.flatMap buildStreamFrame) =
      (sampleFrames, []) :=
  stream_frames_self_delimiting.1 sampleFrames (by decide) 2 (by decide)

end StreamFrame

end NyxNet.Stream
