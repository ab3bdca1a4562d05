import NyxNet.Lib.Bytes

/-!
# TCP fallback framing

`tcp_fallback.rs` tunnels datagrams over one TCP connection, each behind its
length as a 2-byte big-endian integer.  The connection is the list of segments
it delivers; `write_all` appends to what the peer has written so far, and
`read_exact` collects bytes over as many segments as it needs.
-/

namespace NyxNet.TcpFallback

/-- The `std::io::ErrorKind`s of the framing layer. -/
inductive ErrorKind where
  | invalidData
  | invalidInput
  | unexpectedEof
  deriving DecidableEq, Repr

def maxFrame : Nat := 2048

/-- Appends one frame to what has been written to the connection. -/
def writeFrame (written data : Bytes) : Except ErrorKind Bytes :=
  if data.length > maxFrame then .error .invalidInput
  else .ok (written ++ (Bytes.beBytes 2 data.length).toList ++ data)

/-- The answer of one `read_frame`, and the segments left for the next one.
`none` says that the peer has closed the connection. -/
def readFrame (segments : List Bytes) :
    Except ErrorKind (Option Bytes) × List Bytes :=
  match Bytes.readExact 2 segments with
  | none => (.ok none, [])
  | some (lenBuf, segments) =>
      let len := Bytes.ofBeBytes lenBuf
      if len = 0 ∨ len > maxFrame then (.error .invalidData, segments)
      else
        match Bytes.readExact len segments with
        | none => (.error .unexpectedEof, [])
        | some (data, segments) => (.ok (some data), segments)

/-- The answers of `count` calls of `read_frame` one after the other. -/
def readFrames : Nat → List Bytes → List (Except ErrorKind (Option Bytes))
  | 0, _ => []
  | count + 1, segments =>
      (readFrame segments).1 :: readFrames count (readFrame segments).2

/-- What a reader answers where the frame of a payload starts. -/
def answerFor (payload : Bytes) : Except ErrorKind (Option Bytes) :=
  if payload = [] then .error .invalidData else .ok (some payload)

theorem writeFrame_eq_ok_iff {written data result : Bytes} :
    writeFrame written data = .ok result ↔
      data.length ≤ maxFrame ∧ result = written ++ Bytes.frame 2 data := by
  unfold writeFrame
  split
  · rename_i long
    constructor
    · intro equality
      cases equality
    · intro ⟨short, _⟩
      omega
  · rename_i short
    constructor
    · intro equality
      cases equality
      exact ⟨by omega, by rw [Bytes.frame, List.append_assoc]⟩
    · intro ⟨_, equality⟩
      rw [equality, Bytes.frame, List.append_assoc]

theorem readFrame_closed {segments : List Bytes}
    (ended : segments.flatten = []) :
    readFrame segments = (.ok none, []) := by
  unfold readFrame
  rw [Bytes.readExact_of_lt (by rw [ended]; decide)]

/-- Wherever the bytes of a frame are cut, one read answers for its payload and
leaves what follows the frame. -/
theorem readFrame_frame {payload rest : Bytes} {segments : List Bytes}
    (short : payload.length ≤ maxFrame)
    (stream : segments.flatten = Bytes.frame 2 payload ++ rest) :
    (readFrame segments).1 = answerFor payload ∧
      (readFrame segments).2.flatten = rest := by
  have header : (Bytes.beBytes 2 payload.length).toList.length = 2 := by simp
  have small : payload.length < 256 ^ 2 := by
    unfold maxFrame at short
    omega
  rw [Bytes.frame, List.append_assoc] at stream
  obtain ⟨body, readHeader, leavesBody⟩ :=
    Bytes.readExact_of_le 2 segments (by
      rw [stream, List.length_append, header]
      omega)
  rw [stream, List.take_left' header] at readHeader
  rw [stream, List.drop_left' header] at leavesBody
  unfold readFrame
  simp only [readHeader, Bytes.ofBeBytes_beBytes small]
  cases payload with
  | nil =>
      rw [if_pos (by simp)]
      exact ⟨rfl, by simpa using leavesBody⟩
  | cons byte bytes =>
      obtain ⟨after, readBody, leavesAfter⟩ :=
        Bytes.readExact_of_le (byte :: bytes).length body (by
          rw [leavesBody, List.length_append]
          omega)
      rw [leavesBody, List.take_left] at readBody
      rw [leavesBody, List.drop_left] at leavesAfter
      have nonzero : (byte :: bytes).length ≠ 0 := by simp
      rw [if_neg (by omega), readBody]
      exact ⟨by simp [answerFor], leavesAfter⟩

theorem written_of_foldlM {payloads : List Bytes} {written result : Bytes}
    (accepted : payloads.foldlM writeFrame written = .ok result) :
    (∀ payload ∈ payloads, payload.length ≤ maxFrame) ∧
      result = written ++ (payloads.map (Bytes.frame 2)).flatten := by
  induction payloads generalizing written with
  | nil =>
      cases accepted
      exact ⟨by simp, by simp⟩
  | cons payload payloads ih =>
      rw [List.foldlM_cons] at accepted
      cases first : writeFrame written payload with
      | error kind =>
          rw [first] at accepted
          cases accepted
      | ok next =>
          rw [first] at accepted
          obtain ⟨short, appended⟩ := writeFrame_eq_ok_iff.mp first
          obtain ⟨allShort, whole⟩ := ih accepted
          refine ⟨?_, ?_⟩
          · intro candidate member
            rcases List.mem_cons.mp member with equality | later
            · rw [equality]
              exact short
            · exact allShort candidate later
          · rw [whole, appended, List.map_cons, List.flatten_cons,
              List.append_assoc]

/-- The reader answers for every payload in turn, and then reports the end of
the connection. -/
theorem readFrames_frames {payloads segments : List Bytes}
    (short : ∀ payload ∈ payloads, payload.length ≤ maxFrame)
    (stream : segments.flatten = (payloads.map (Bytes.frame 2)).flatten) :
    readFrames (payloads.length + 1) segments =
      payloads.map answerFor ++ [.ok none] := by
  induction payloads generalizing segments with
  | nil =>
      rw [List.length_nil, readFrames, readFrame_closed stream]
      rfl
  | cons payload payloads ih =>
      rw [List.map_cons, List.flatten_cons] at stream
      obtain ⟨answer, leaves⟩ :=
        readFrame_frame (short payload List.mem_cons_self) stream
      rw [List.length_cons, readFrames, answer,
        ih (fun candidate member =>
          short candidate (List.mem_cons_of_mem _ member)) leaves]
      rfl

theorem answerFor_eq_ok_iff {payload : Bytes} :
    answerFor payload = .ok (some payload) ↔ payload ≠ [] := by
  unfold answerFor
  split
  · rename_i empty
    simp [empty]
  · rename_i nonempty
    simp [nonempty]

/-- The payloads come back, in order and with nothing after them, exactly when
none of them is empty: the writer accepts an empty payload, and the reader
takes its length for invalid data. -/
theorem readFrames_written_iff {payloads segments : List Bytes}
    {written : Bytes}
    (accepted : payloads.foldlM writeFrame [] = .ok written)
    (stream : segments.flatten = written) :
    readFrames (payloads.length + 1) segments =
        payloads.map (fun payload => .ok (some payload)) ++ [.ok none] ↔
      [] ∉ payloads := by
  obtain ⟨short, whole⟩ := written_of_foldlM accepted
  rw [readFrames_frames short (by rw [stream, whole, List.nil_append]),
    List.append_left_inj, List.map_inj_left]
  constructor
  · intro answers member
    exact answerFor_eq_ok_iff.mp (answers [] member) rfl
  · intro nonempty payload member
    apply answerFor_eq_ok_iff.mpr
    intro empty
    exact nonempty (empty ▸ member)

theorem readFrames_written_split :
    readFrames 3 [[0], [2, 7, 9, 0, 1], [5]] =
      [.ok (some [7, 9]), .ok (some [5]), .ok none] := by
  have accepted : [[7, 9], [5]].foldlM writeFrame [] =
      .ok [0, 2, 7, 9, 0, 1, 5] := by decide +kernel
  have stream : [[0], [2, 7, 9, 0, 1], [5]].flatten =
      [0, 2, 7, 9, 0, 1, (5 : UInt8)] := rfl
  exact (readFrames_written_iff accepted stream).mpr (by decide)

/-- An accepted empty payload does not come back. -/
theorem readFrames_empty_payload :
    ([[]] : List Bytes).foldlM writeFrame [] = .ok [0, 0] ∧
      readFrames 2 [[0, 0]] ≠ [.ok (some []), .ok none] := by
  refine ⟨?_, ?_⟩
  · decide +kernel
  · decide

end NyxNet.TcpFallback
