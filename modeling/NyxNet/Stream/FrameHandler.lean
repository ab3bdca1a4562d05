import Mathlib.Data.List.Pairwise
import Mathlib.Data.List.Sort
import NyxNet.Lib.Word
import NyxNet.Stream.StreamFrame

/-!
# Reassembly of a stream

`StreamReassembly` of `frame_handler.rs` and what `FrameHandler::process_frame`
does with the entry of one stream in its map: frames wait in a queue ordered by
offset until the data up to them has been handed out, and a stream that a
handed out chunk completes is removed.  Offsets are `u32`; their sums wrap or
abort the call, by the mode of the build.  A frame that the limits over all
streams turn away changes nothing and is left out.
-/

namespace NyxNet.Stream

/-- `FrameHandlerError`. -/
inductive FrameHandlerError where
  | invalidFrame (reason : String)
  | frameParsing (reason : String)
  | duplicateFrame (streamId offset : UInt32)
  | outOfOrder (expected actual : UInt32)
  | bufferOverflow (streamId : UInt32)
  | streamNotFound (streamId : UInt32)
  deriving DecidableEq, Repr

inductive FrameValidation where
  | valid
  | duplicate
  | outOfOrder
  | invalid (reason : String)
  deriving DecidableEq, Repr

structure ReassembledData where
  streamId : UInt32
  data : Bytes
  isComplete : Bool
  hasFin : Bool
  deriving DecidableEq, Repr

structure StreamReassembly where
  streamId : UInt32
  expectedOffset : UInt32
  frames : List StreamFrame
  totalBuffered : Nat
  maxBufferSize : Nat
  hasFin : Bool
  finOffset : Option UInt32
  deriving DecidableEq, Repr

/-- What the loop of `get_contiguous_data` has taken off the queue. -/
structure Collected where
  data : Bytes
  currentOffset : UInt32
  hasFinInData : Bool
  frames : List StreamFrame
  totalBuffered : Nat
  aborted : Bool
  deriving DecidableEq, Repr

namespace StreamReassembly

def new (streamId : UInt32) (maxBufferSize : Nat) : StreamReassembly :=
  { streamId
    expectedOffset := 0
    frames := []
    totalBuffered := 0
    maxBufferSize
    hasFin := false
    finOffset := none }

/-- Inserts a frame in order by offset. -/
def insertFrame (frame : StreamFrame) (frames : List StreamFrame) :
    List StreamFrame :=
  frames.orderedInsert (fun left right => left.offset < right.offset) frame

/-- The last part of `add_frame`. -/
def pushFrame (reassembly : StreamReassembly) (frame : StreamFrame) :
    StreamReassembly :=
  { reassembly with
    totalBuffered := reassembly.totalBuffered + frame.data.length
    frames := insertFrame frame reassembly.frames }

/-- `add_frame`. -/
def addFrame (mode : OverflowMode) (reassembly : StreamReassembly)
    (frame : StreamFrame) :
    Outcome FrameHandlerError Unit × StreamReassembly :=
  if reassembly.totalBuffered + frame.data.length >
      reassembly.maxBufferSize then
    (.failed (.bufferOverflow reassembly.streamId), reassembly)
  else if reassembly.frames.any (fun other => other.offset == frame.offset) then
    (.failed (.duplicateFrame reassembly.streamId frame.offset), reassembly)
  else if frame.fin then
    if reassembly.hasFin then
      (.failed (.invalidFrame
        s!"Multiple FIN frames for stream {reassembly.streamId}"), reassembly)
    else
      let reassembly := { reassembly with hasFin := true }
      match mode.fit32 (frame.offset.toNat +
          (UInt32.ofNat frame.data.length).toNat) with
      | none => (.panicked, reassembly)
      | some finOffset =>
          (.returned (), pushFrame
            { reassembly with finOffset := some finOffset } frame)
  else (.returned (), pushFrame reassembly frame)

/-- The loop of `get_contiguous_data`. -/
def collect (mode : OverflowMode) (currentOffset : UInt32) (data : Bytes)
    (totalBuffered : Nat) : List StreamFrame → Collected
  | [] =>
      { data, currentOffset, hasFinInData := false, frames := [],
        totalBuffered, aborted := false }
  | frame :: rest =>
      if frame.offset ≠ currentOffset then
        { data, currentOffset, hasFinInData := false, frames := frame :: rest,
          totalBuffered, aborted := false }
      else
        match mode.fit32 (currentOffset.toNat +
            (UInt32.ofNat frame.data.length).toNat) with
        | none =>
            { data := data ++ frame.data, currentOffset, hasFinInData := false,
              frames := rest, totalBuffered, aborted := true }
        | some next =>
            if frame.fin then
              { data := data ++ frame.data, currentOffset := next,
                hasFinInData := true, frames := rest,
                totalBuffered := totalBuffered - frame.data.length,
                aborted := false }
            else
              collect mode next (data ++ frame.data)
                (totalBuffered - frame.data.length) rest

/-- `get_contiguous_data`.  A queue that yields no bytes leaves the expected
offset as it is. -/
def getContiguousData (mode : OverflowMode) (reassembly : StreamReassembly) :
    Outcome FrameHandlerError (Option ReassembledData) × StreamReassembly :=
  if reassembly.frames.isEmpty then (.returned none, reassembly)
  else
    let collected := collect mode reassembly.expectedOffset []
      reassembly.totalBuffered reassembly.frames
    let reassembly := { reassembly with
      frames := collected.frames
      totalBuffered := collected.totalBuffered }
    if collected.aborted then (.panicked, reassembly)
    else if collected.data.isEmpty then (.returned none, reassembly)
    else
      (.returned (some
        { streamId := reassembly.streamId
          data := collected.data
          isComplete := collected.hasFinInData ||
            (reassembly.hasFin &&
              reassembly.finOffset == some collected.currentOffset)
          hasFin := collected.hasFinInData }),
        { reassembly with expectedOffset := collected.currentOffset })

/-- `is_complete`. -/
def isComplete (reassembly : StreamReassembly) : Bool :=
  reassembly.hasFin && reassembly.frames.isEmpty &&
    reassembly.finOffset == some reassembly.expectedOffset

/-- `validate_frame`; `none` is an overflow of the limit. -/
def validateFrame (mode : OverflowMode) (reassembly : StreamReassembly)
    (frame : StreamFrame) : Option FrameValidation :=
  if reassembly.frames.any (fun other => other.offset == frame.offset) then
    some .duplicate
  else
    (mode.fit32 (reassembly.expectedOffset.toNat +
        (UInt32.ofNat reassembly.maxBufferSize).toNat)).map fun limit =>
      if frame.offset > limit then .outOfOrder
      else if frame.fin && reassembly.hasFin then
        .invalid "Multiple FIN frames"
      else if frame.data.isEmpty && !frame.fin then
        .invalid "Empty non-FIN frame"
      else .valid

/-- The loop of `process_frame` over the contiguous data, with the entry of the
stream afterwards; a completed stream is removed and ends the loop.  Every
round takes a frame off the queue, `fuel` counts the rounds. -/
def collectAll (mode : OverflowMode) :
    Nat → StreamReassembly →
      Outcome FrameHandlerError (List ReassembledData) ×
        Option StreamReassembly
  | 0, reassembly => (.returned [], some reassembly)
  | fuel + 1, reassembly =>
      match reassembly.getContiguousData mode with
      | (.returned none, reassembly) => (.returned [], some reassembly)
      | (.returned (some data), reassembly) =>
          if data.isComplete then (.returned [data], none)
          else
            match collectAll mode fuel reassembly with
            | (.returned results, slot) => (.returned (data :: results), slot)
            | (.failed error, slot) => (.failed error, slot)
            | (.panicked, slot) => (.panicked, slot)
      | (.failed error, reassembly) => (.failed error, some reassembly)
      | (.panicked, reassembly) => (.panicked, some reassembly)

/-- The rest of `process_frame`, once the entry of the stream is there. -/
def processFrame (mode : OverflowMode) (reassembly : StreamReassembly)
    (frame : StreamFrame) :
    Outcome FrameHandlerError (List ReassembledData) ×
      Option StreamReassembly :=
  match reassembly.validateFrame mode frame with
  | none => (.panicked, some reassembly)
  | some .duplicate => (.returned [], some reassembly)
  | some .outOfOrder =>
      (.failed (.outOfOrder reassembly.expectedOffset frame.offset),
        some reassembly)
  | some (.invalid reason) => (.failed (.invalidFrame reason), some reassembly)
  | some .valid =>
      match reassembly.addFrame mode frame with
      | (.returned _, reassembly) =>
          collectAll mode (reassembly.frames.length + 1) reassembly
      | (.failed error, reassembly) => (.failed error, some reassembly)
      | (.panicked, reassembly) => (.panicked, some reassembly)

end StreamReassembly

namespace FrameHandler

/-- `process_frame` on the entry of the frame's stream, which is created when
the map has none. -/
def processFrame (mode : OverflowMode) (streamId : UInt32)
    (maxBufferPerStream : Nat) (slot : Option StreamReassembly)
    (frame : StreamFrame) :
    Outcome FrameHandlerError (List ReassembledData) ×
      Option StreamReassembly :=
  (slot.getD (.new streamId maxBufferPerStream)).processFrame mode frame

/-- `is_stream_complete`. -/
def isStreamComplete (slot : Option StreamReassembly) : Bool :=
  (slot.map StreamReassembly.isComplete).getD false

end FrameHandler

/-- The frames of a sender that cuts the rest of a stream into chunks, from an
offset on; the last one carries the FIN flag. -/
def framesFrom (streamId : UInt32) :
    Nat → List Bytes → Bytes → List StreamFrame
  | start, [], last =>
      [{ streamId, offset := UInt32.ofNat start, fin := true, data := last }]
  | start, chunk :: chunks, last =>
      { streamId, offset := UInt32.ofNat start, fin := false, data := chunk } ::
        framesFrom streamId (start + chunk.length) chunks last

namespace StreamFrame

/-- The offset behind the data of a frame. -/
def stop (frame : StreamFrame) : Nat := frame.offset.toNat + frame.data.length

/-- The frame has data or ends the stream; a receiver refuses all others. -/
def Carries (frame : StreamFrame) : Prop :=
  frame.data ≠ [] ∨ frame.fin = true

/-- The frame is not the last one and ends before the other starts. -/
def Precedes (left right : StreamFrame) : Prop :=
  left.fin = false ∧ left.stop ≤ right.offset.toNat

end StreamFrame

/-- Frames that a stream is cut into. -/
structure Cut (stream : Bytes) (frames : List StreamFrame) : Prop where
  addressable : stream.length < 2 ^ 32
  inside : ∀ frame ∈ frames, frame.stop ≤ stream.length
  content : ∀ frame ∈ frames,
    frame.data = (stream.drop frame.offset.toNat).take frame.data.length
  apart : ∀ left ∈ frames, ∀ right ∈ frames,
    left.offset.toNat < right.offset.toNat → left.stop ≤ right.offset.toNat
  unique : ∀ left ∈ frames, ∀ right ∈ frames, left.Carries → right.Carries →
    left.offset = right.offset → left = right
  covered : ∀ position < stream.length, ∃ frame ∈ frames,
    frame.offset.toNat ≤ position ∧ position < frame.stop
  finStops : ∀ frame ∈ frames, frame.fin = true → frame.stop = stream.length
  finUnique : ∀ left ∈ frames, ∀ right ∈ frames,
    left.fin = true → right.fin = true → left = right
  finExists : ∃ frame ∈ frames, frame.fin = true

theorem toNat_offset {offset : Nat} (fits : offset < 2 ^ 32) :
    (UInt32.ofNat offset).toNat = offset :=
  UInt32.toNat_ofNat_of_lt' fits

/-- One frame of the cut, from the start of the rest it belongs to. -/
theorem mem_framesFrom {streamId : UInt32} {start : Nat} {chunks : List Bytes}
    {last : Bytes} {frame : StreamFrame}
    (short : start + (chunks.flatten ++ last).length < 2 ^ 32)
    (member : frame ∈ framesFrom streamId start chunks last) :
    start ≤ frame.offset.toNat ∧
      frame.stop ≤ start + (chunks.flatten ++ last).length ∧
      frame.data = ((chunks.flatten ++ last).drop
        (frame.offset.toNat - start)).take frame.data.length ∧
      (frame.fin = true →
        frame.stop = start + (chunks.flatten ++ last).length) := by
  induction chunks generalizing start with
  | nil =>
      have isLast := List.mem_singleton.mp member
      have offset : frame.offset.toNat = start := by
        rw [isLast]
        exact toNat_offset (by
          simp only [List.flatten_nil, List.nil_append] at short
          omega)
      have data : frame.data = last := by rw [isLast]
      rw [StreamFrame.stop, offset, data]
      simp
  | cons chunk chunks ih =>
      rw [List.flatten_cons, List.append_assoc, List.length_append] at short ⊢
      rcases List.mem_cons.mp member with isFirst | later
      · have offset : frame.offset.toNat = start := by
          rw [isFirst]
          exact toNat_offset (by omega)
        have data : frame.data = chunk := by rw [isFirst]
        have notFin : frame.fin = false := by rw [isFirst]
        rw [StreamFrame.stop, offset, data, notFin]
        refine ⟨Nat.le_refl _, by omega, ?_, by simp⟩
        rw [Nat.sub_self, List.drop_zero, List.take_left]
      · obtain ⟨lower, upper, content, finStops⟩ := ih (by omega) later
        refine ⟨by omega, by omega, ?_, fun fin => ?_⟩
        · have further : frame.offset.toNat - start = chunk.length +
              (frame.offset.toNat - (start + chunk.length)) := by omega
          rw [further, ← List.drop_drop, List.drop_left]
          exact content
        · rw [finStops fin]
          omega

/-- The frames follow one another. -/
theorem pairwise_framesFrom {streamId : UInt32} {start : Nat}
    {chunks : List Bytes} {last : Bytes}
    (short : start + (chunks.flatten ++ last).length < 2 ^ 32) :
    (framesFrom streamId start chunks last).Pairwise StreamFrame.Precedes := by
  induction chunks generalizing start with
  | nil => exact List.pairwise_singleton _ _
  | cons chunk chunks ih =>
      rw [List.flatten_cons, List.append_assoc, List.length_append] at short
      refine List.pairwise_cons.mpr ⟨?_, ih (by omega)⟩
      intro right later
      obtain ⟨lower, _⟩ := mem_framesFrom (by omega) later
      refine ⟨rfl, ?_⟩
      show (UInt32.ofNat start).toNat + chunk.length ≤ right.offset.toNat
      rw [toNat_offset (by omega)]
      exact lower

theorem covered_framesFrom {streamId : UInt32} {start position : Nat}
    {chunks : List Bytes} {last : Bytes}
    (short : start + (chunks.flatten ++ last).length < 2 ^ 32)
    (lower : start ≤ position)
    (upper : position < start + (chunks.flatten ++ last).length) :
    ∃ frame ∈ framesFrom streamId start chunks last,
      frame.offset.toNat ≤ position ∧ position < frame.stop := by
  induction chunks generalizing start with
  | nil =>
      simp only [List.flatten_nil, List.nil_append] at short upper
      refine ⟨_, List.mem_singleton_self _, ?_⟩
      rw [StreamFrame.stop, toNat_offset (by omega)]
      exact ⟨lower, upper⟩
  | cons chunk chunks ih =>
      rw [List.flatten_cons, List.append_assoc, List.length_append] at short upper
      by_cases inFirst : position < start + chunk.length
      · refine ⟨_, List.mem_cons_self, ?_⟩
        rw [StreamFrame.stop, toNat_offset (by omega)]
        exact ⟨lower, inFirst⟩
      · obtain ⟨frame, member, around⟩ :=
          ih (by omega) (Nat.le_of_not_lt inFirst) (by omega)
        exact ⟨frame, List.mem_cons_of_mem _ member, around⟩

theorem fin_framesFrom (streamId : UInt32) (start : Nat)
    (chunks : List Bytes) (last : Bytes) :
    ∃ frame ∈ framesFrom streamId start chunks last, frame.fin = true := by
  induction chunks generalizing start with
  | nil => exact ⟨_, List.mem_singleton_self _, rfl⟩
  | cons chunk chunks ih =>
      obtain ⟨frame, member, fin⟩ := ih (start + chunk.length)
      exact ⟨frame, List.mem_cons_of_mem _ member, fin⟩

/-- Of two frames of a sender, one follows the other. -/
theorem ordered_framesFrom {streamId : UInt32} {start : Nat}
    {chunks : List Bytes} {last : Bytes} {left right : StreamFrame}
    (short : start + (chunks.flatten ++ last).length < 2 ^ 32)
    (isLeft : left ∈ framesFrom streamId start chunks last)
    (isRight : right ∈ framesFrom streamId start chunks last)
    (different : left ≠ right) : left.Precedes right ∨ right.Precedes left := by
  have symmetric : Std.Symm fun first second : StreamFrame =>
      first.Precedes second ∨ second.Precedes first :=
    ⟨fun _ _ => Or.symm⟩
  have either : (framesFrom streamId start chunks last).Pairwise
      fun first second => first.Precedes second ∨ second.Precedes first :=
    (pairwise_framesFrom short).imp Or.inl
  exact either.forall isLeft isRight different

/-- What a sender cuts a stream into is a cut. -/
theorem cut_framesFrom (streamId : UInt32) {chunks : List Bytes} {last : Bytes}
    (short : (chunks.flatten ++ last).length < 2 ^ 32) :
    Cut (chunks.flatten ++ last) (framesFrom streamId 0 chunks last) := by
  have fromZero : 0 + (chunks.flatten ++ last).length < 2 ^ 32 := by omega
  refine ⟨short, ?_, ?_, ?_, ?_, ?_, ?_, ?_, ?_⟩
  · intro frame member
    obtain ⟨_, upper, _⟩ := mem_framesFrom fromZero member
    omega
  · intro frame member
    obtain ⟨_, _, content, _⟩ := mem_framesFrom fromZero member
    exact content
  · intro left isLeft right isRight before
    have different : left ≠ right := by
      intro same
      rw [same] at before
      exact Nat.lt_irrefl _ before
    rcases ordered_framesFrom fromZero isLeft isRight different with
      ⟨_, follows⟩ | ⟨_, follows⟩
    · exact follows
    · unfold StreamFrame.stop at follows
      omega
  · intro left isLeft right isRight leftCarries rightCarries sameOffset
    by_contra different
    have notCarried : ∀ first second : StreamFrame, first.fin = false →
        first.stop ≤ second.offset.toNat → first.offset = second.offset →
          ¬ first.Carries := by
      intro first second notFin follows same carries
      rcases carries with nonempty | isFin
      · unfold StreamFrame.stop at follows
        rw [same] at follows
        exact nonempty (List.length_eq_zero_iff.mp (by omega))
      · rw [notFin] at isFin
        cases isFin
    rcases ordered_framesFrom fromZero isLeft isRight different with
      ⟨notFin, follows⟩ | ⟨notFin, follows⟩
    · exact notCarried left right notFin follows sameOffset leftCarries
    · exact notCarried right left notFin follows sameOffset.symm rightCarries
  · intro position inside
    exact covered_framesFrom fromZero (Nat.zero_le _) (by omega)
  · intro frame member isFin
    obtain ⟨_, _, _, finStops⟩ := mem_framesFrom fromZero member
    rw [finStops isFin, Nat.zero_add]
  · intro left isLeft right isRight leftFin rightFin
    by_contra different
    rcases ordered_framesFrom fromZero isLeft isRight different with
      ⟨notFin, _⟩ | ⟨notFin, _⟩
    · rw [notFin] at leftFin
      cases leftFin
    · rw [notFin] at rightFin
      cases rightFin
  · exact fin_framesFrom streamId 0 chunks last

end NyxNet.Stream
