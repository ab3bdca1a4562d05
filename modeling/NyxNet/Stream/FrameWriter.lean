import NyxNet.Stream.FrameHandler

/-!
# Writing STREAM frames

`create_data_frame` and `serialize_frame` of `frame_handler.rs`.  They put the
fin byte behind the length of the data; the parser of `stream_frame.rs` reads
it in front.
-/

namespace NyxNet.Stream

open ByteParser

/-- Serialize frame to wire format. -/
def serializeFrame (frame : StreamFrame) : Except FrameHandlerError Bytes :=
  .ok ((Bytes.beBytes 4 frame.streamId.toNat).toList ++
    ((Bytes.beBytes 4 frame.offset.toNat).toList ++
      ((Bytes.beBytes 4 (UInt32.ofNat frame.data.length).toNat).toList ++
        ((if frame.fin then 1 else 0) :: frame.data))))

/-- Create a data frame for transmission. -/
def createDataFrame (streamId offset : UInt32) (data : Bytes) (fin : Bool) :
    Except FrameHandlerError Bytes :=
  serializeFrame { streamId, offset, data, fin }

namespace StreamFrame

/-- The byte that stands for `fin` on the wire. -/
def finByteOf (fin : Bool) : UInt8 := if fin then 1 else 0

/-- Four equal bytes and one more of the same make the two orders agree, and
nothing else does. -/
theorem word_then_fin_iff {word data rest : Bytes} {finByte written : UInt8}
    (width : word.length = 4) :
    word ++ written :: data = finByte :: (word ++ data) ++ rest ↔
      rest = [] ∧ finByte = written ∧ word = List.replicate 4 written := by
  rcases word with
    _ | ⟨byte0, _ | ⟨byte1, _ | ⟨byte2, _ | ⟨byte3, _ | ⟨byte4, more⟩⟩⟩⟩⟩
  · cases width
  · cases width
  · cases width
  · cases width
  · simp only [List.cons_append, List.nil_append, List.cons.injEq,
      List.self_eq_append_right, List.replicate, and_true]
    constructor
    · intro facts
      obtain ⟨rfl, rfl, rfl, rfl, rfl, rfl⟩ := facts
      exact ⟨rfl, rfl, rfl, rfl, rfl, rfl⟩
    · intro facts
      obtain ⟨rfl, rfl, rfl, rfl, rfl, rfl⟩ := facts
      exact ⟨rfl, rfl, rfl, rfl, rfl, rfl⟩
  · cases width

/-- The length that four copies of the fin byte spell. -/
theorem length_word_iff {length : Nat} (short : length < 2 ^ 32)
    (fin : Bool) :
    (Bytes.beBytes 4 length).toList = List.replicate 4 (finByteOf fin) ↔
      length = if fin then 0x01010101 else 0 := by
  have spelled : ∀ fin : Bool,
      (Bytes.beBytes 4 (if fin then 0x01010101 else 0)).toList =
        List.replicate 4 (finByteOf fin) := by
    intro fin
    rw [Bytes.toList_beBytes]
    cases fin with
    | false => decide
    | true => decide
  have back : Bytes.ofBeBytes (Bytes.beBytes 4 length).toList = length :=
    Bytes.ofBeBytes_beBytes short
  constructor
  · intro equal
    rw [equal, ← spelled fin, Bytes.ofBeBytes_beBytes] at back
    · exact back.symm
    · cases fin with
      | false => decide
      | true => decide
  · intro equal
    rw [equal, spelled fin]

/-- The written bytes as an encoding that the parser knows. -/
theorem serialized_eq_encodeWith_iff {frame : StreamFrame}
    (short : frame.data.length < 2 ^ 32) {bytes rest : Bytes}
    {finByte : UInt8} (written : serializeFrame frame = .ok bytes) :
    bytes = frame.encodeWith finByte ++ rest ↔
      rest = [] ∧ finByte = finByteOf frame.fin ∧
        frame.data.length = if frame.fin then 0x01010101 else 0 := by
  cases written
  rw [encodeWith, UInt32.toNat_ofNat_of_lt' short, List.append_assoc,
    List.append_assoc, List.append_cancel_left_eq, List.append_cancel_left_eq]
  apply Iff.trans (word_then_fin_iff Vector.length_toList)
  exact and_congr Iff.rfl (and_congr Iff.rfl (length_word_iff short frame.fin))

theorem finByteOf_bne (fin : Bool) : fin = (finByteOf fin != 0) := by
  cases fin with
  | false => rfl
  | true => rfl

/-- A frame is read back from what was written for it when its length spells
the fin byte four times. -/
theorem parse_serialized_iff {frame : StreamFrame} {bytes : Bytes}
    (written : serializeFrame frame = .ok bytes) :
    (∃ rest, parseStreamFrame bytes = .ok (rest, frame)) ↔
      frame.data.length = if frame.fin then 0x01010101 else 0 := by
  constructor
  · intro readBack
    obtain ⟨rest, parsed⟩ := readBack
    obtain ⟨short, finByte, -, split⟩ := parseStreamFrame_eq_ok_iff.mp parsed
    exact ((serialized_eq_encodeWith_iff short written).mp split).2.2
  · intro length
    have short : frame.data.length < 2 ^ 32 := by
      rw [length]
      cases frame.fin with
      | false => decide
      | true => decide
    refine ⟨[], parseStreamFrame_eq_ok_iff.mpr
      ⟨short, finByteOf frame.fin, finByteOf_bne frame.fin, ?_⟩⟩
    exact (serialized_eq_encodeWith_iff short written).mpr ⟨rfl, rfl, length⟩

/-- Only the empty frame without a fin, and the frame of 0x01010101 bytes with
one, are read back. -/
theorem created_frame_read_back_iff (streamId offset : UInt32) (data : Bytes)
    (fin : Bool) :
    (∃ bytes rest, createDataFrame streamId offset data fin = .ok bytes ∧
        parseStreamFrame bytes = .ok (rest, { streamId, offset, fin, data })) ↔
      data = [] ∧ fin = false ∨ data.length = 0x01010101 ∧ fin = true := by
  have lengths : data.length = (if fin then 0x01010101 else 0) ↔
      data = [] ∧ fin = false ∨ data.length = 0x01010101 ∧ fin = true := by
    cases fin with
    | false => simp
    | true => simp
  rw [← lengths]
  constructor
  · intro readBack
    obtain ⟨bytes, rest, written, parsed⟩ := readBack
    exact (parse_serialized_iff written).mp ⟨rest, parsed⟩
  · intro length
    have written : createDataFrame streamId offset data fin = .ok _ := rfl
    obtain ⟨rest, parsed⟩ := (parse_serialized_iff written).mpr length
    exact ⟨_, rest, written, parsed⟩

/-- One byte without a fin is refused: its fin byte is read as the end of a
length of 256. -/
theorem short_frame_refused :
    (createDataFrame 1 0 [72] false =
          .ok [0, 0, 0, 1, 0, 0, 0, 0, 0, 0, 0, 1, 0, 72] ∧
        parseStreamFrame [0, 0, 0, 1, 0, 0, 0, 0, 0, 0, 0, 1, 0, 72] =
          .error ⟨[72], .eof⟩) ∧
      ¬ ∀ (streamId offset : UInt32) (data : Bytes) (fin : Bool),
        ∃ bytes rest, createDataFrame streamId offset data fin = .ok bytes ∧
          parseStreamFrame bytes =
            .ok (rest, { streamId, offset, fin, data }) := by
  refine ⟨⟨?_, by decide⟩, ?_⟩
  · simp only [createDataFrame, serializeFrame, Bytes.toList_beBytes]
    rfl
  intro readBack
  obtain ⟨bytes, rest, written, parsed⟩ := readBack 1 0 [72] false
  have length := (parse_serialized_iff written).mp ⟨rest, parsed⟩
  exact absurd length (by decide)

end StreamFrame

end NyxNet.Stream
