import NyxNet.Lib.Trace
import NyxNet.Stream.FrameHandler

/-!
# Delivery of a reassembled stream

A receiver is handed the frames of one cut in any order.  The queue holds
frames of the cut from the expected offset on; collecting moves the offset from
one boundary of the cut to another, and what has arrived waits or has been
handed out.  Two kinds of late frames break this.  A frame that is queued before
the expected offset stays at the head and blocks all others; a frame that
arrives after the stream was completed and removed starts the stream anew.
-/

namespace NyxNet.Stream

/-- The offset lies between frames: none has data on both sides of it. -/
def Boundary (frames : List StreamFrame) (offset : Nat) : Prop :=
  ∀ frame ∈ frames, frame.stop ≤ offset ∨ offset ≤ frame.offset.toNat

def bufferedBytes (queue : List StreamFrame) : Nat :=
  (queue.map fun frame => frame.data.length).sum

/-- Frames of the cut that wait from an offset on, in order. -/
structure Queued (frames : List StreamFrame) (offset : Nat)
    (queue : List StreamFrame) : Prop where
  known : ∀ frame ∈ queue, frame ∈ frames
  carries : ∀ frame ∈ queue, frame.Carries
  ahead : ∀ frame ∈ queue, offset ≤ frame.offset.toNat
  sorted : queue.Pairwise fun left right => left.offset < right.offset

/-- What a collection leaves: it has taken the frames up to its new offset,
and nothing waits there. -/
structure Drains (stream : Bytes) (frames : List StreamFrame)
    (current : UInt32) (data : Bytes) (queue : List StreamFrame)
    (collected : Collected) : Prop where
  returned : collected.aborted = false
  onward : current.toNat ≤ collected.currentOffset.toNat
  reached : collected.currentOffset.toNat ≤ stream.length
  data_eq : collected.data = data ++ (stream.drop current.toNat).take
    (collected.currentOffset.toNat - current.toNat)
  boundary : Boundary frames collected.currentOffset.toNat
  queued : Queued frames collected.currentOffset.toNat collected.frames
  emptied : ∀ frame ∈ collected.frames,
    frame.offset ≠ collected.currentOffset
  kept : ∀ frame ∈ collected.frames, frame ∈ queue
  taken : ∀ frame ∈ queue, frame ∈ collected.frames ∨
    frame.stop ≤ collected.currentOffset.toNat
  counted : collected.totalBuffered = bufferedBytes collected.frames

variable {stream : Bytes} {frames : List StreamFrame}

/-- The end of a frame with data or FIN is a boundary. -/
theorem Cut.boundary_stop (cut : Cut stream frames) {frame : StreamFrame}
    (member : frame ∈ frames) (carries : frame.Carries) :
    Boundary frames frame.stop := by
  intro other isOther
  rcases Nat.lt_trichotomy other.offset.toNat frame.offset.toNat with
    before | same | behind
  · left
    have apart := cut.apart other isOther frame member before
    unfold StreamFrame.stop at *
    omega
  · left
    by_cases otherCarries : other.Carries
    · rw [cut.unique other isOther frame member otherCarries carries
        (UInt32.toNat_inj.mp same)]
    · have empty : other.data = [] := by
        by_contra nonempty
        exact otherCarries (Or.inl nonempty)
      unfold StreamFrame.stop
      rw [empty, same]
      simp
  · right
    exact cut.apart frame member other isOther behind

/-- Nothing waits behind the frame that ends the stream. -/
theorem Cut.nil_behind_fin (cut : Cut stream frames) {offset : Nat}
    {frame : StreamFrame} {rest : List StreamFrame}
    (queued : Queued frames offset (frame :: rest))
    (isFin : frame.fin = true) : rest = [] := by
  cases rest with
  | nil => rfl
  | cons other rest =>
      have isFrame := queued.known frame List.mem_cons_self
      have inRest : other ∈ frame :: other :: rest :=
        List.mem_cons_of_mem _ List.mem_cons_self
      have isOther := queued.known other inRest
      have behind := UInt32.lt_iff_toNat_lt.mp
        ((List.pairwise_cons.mp queued.sorted).1 other List.mem_cons_self)
      have stops := cut.finStops frame isFrame isFin
      have apart := cut.apart frame isFrame other isOther behind
      have inside := cut.inside other isOther
      unfold StreamFrame.stop at *
      rcases queued.carries other inRest with nonempty | otherFin
      · have filled := List.length_pos_iff.mpr nonempty
        omega
      · have same := cut.finUnique frame isFrame other isOther isFin otherFin
        rw [same] at behind
        exact absurd behind (Nat.lt_irrefl _)

theorem Queued.tail {offset : Nat} {frame : StreamFrame}
    {rest : List StreamFrame} (cut : Cut stream frames)
    (queued : Queued frames offset (frame :: rest)) :
    Queued frames frame.stop rest := by
  obtain ⟨behind, sorted⟩ := List.pairwise_cons.mp queued.sorted
  refine ⟨?_, ?_, ?_, sorted⟩
  · intro other member
    exact queued.known other (List.mem_cons_of_mem _ member)
  · intro other member
    exact queued.carries other (List.mem_cons_of_mem _ member)
  · intro other member
    exact cut.apart frame (queued.known frame List.mem_cons_self) other
      (queued.known other (List.mem_cons_of_mem _ member))
      (UInt32.lt_iff_toNat_lt.mp (behind other member))

/-- A frame at the current offset, collected before the rest. -/
theorem Drains.cons (cut : Cut stream frames) {current next : UInt32}
    {data : Bytes} {frame : StreamFrame} {rest : List StreamFrame}
    {collected : Collected} (isFrame : frame ∈ frames)
    (here : frame.offset = current) (isNext : next.toNat = frame.stop)
    (drains : Drains stream frames next (data ++ frame.data) rest collected) :
    Drains stream frames current data (frame :: rest) collected := by
  have onward := drains.onward
  have content := cut.content frame isFrame
  rw [isNext, StreamFrame.stop, here] at onward
  rw [here] at content
  refine ⟨drains.returned, by omega, drains.reached, ?_, drains.boundary,
    drains.queued, drains.emptied,
    fun other member => List.mem_cons_of_mem _ (drains.kept other member), ?_,
    drains.counted⟩
  · have further : collected.currentOffset.toNat - current.toNat =
        frame.data.length +
          (collected.currentOffset.toNat -
            (current.toNat + frame.data.length)) := by omega
    rw [drains.data_eq, isNext, StreamFrame.stop, here, further, List.take_add,
      ← content, List.drop_drop, List.append_assoc]
  · intro other member
    rcases List.mem_cons.mp member with isFirst | later
    · right
      rw [isFirst, ← isNext]
      exact drains.onward
    · exact drains.taken other later

/-- The collection stops where it is: no frame begins there. -/
theorem Drains.stop {current : UInt32} (data : Bytes) {total : Nat}
    {queue : List StreamFrame} (hasFinInData : Bool)
    (queued : Queued frames current.toNat queue)
    (boundary : Boundary frames current.toNat)
    (reached : current.toNat ≤ stream.length)
    (counted : total = bufferedBytes queue)
    (nothingHere : ∀ frame ∈ queue, frame.offset ≠ current) :
    Drains stream frames current data queue
      { data, currentOffset := current, hasFinInData, frames := queue,
        totalBuffered := total, aborted := false } where
  returned := rfl
  onward := Nat.le_refl _
  reached := reached
  data_eq := by simp
  boundary := boundary
  queued := queued
  emptied := nothingHere
  kept := fun _ member => member
  taken := fun _ member => Or.inl member
  counted := counted

theorem Queued.ne_of_first_ne {current : UInt32} {frame : StreamFrame}
    {rest : List StreamFrame}
    (queued : Queued frames current.toNat (frame :: rest))
    (elsewhere : frame.offset ≠ current) :
    ∀ other ∈ frame :: rest, other.offset ≠ current := by
  obtain ⟨behind, _⟩ := List.pairwise_cons.mp queued.sorted
  have ahead := queued.ahead frame List.mem_cons_self
  intro other member
  rcases List.mem_cons.mp member with isFirst | later
  · rw [isFirst]
    exact elsewhere
  · have further := UInt32.lt_iff_toNat_lt.mp (behind other later)
    intro same
    rw [same] at further
    exact absurd (Nat.lt_of_le_of_lt ahead further) (Nat.lt_irrefl _)

/-- The loop of `get_contiguous_data` on frames of a cut. -/
theorem collect_drains (cut : Cut stream frames) (mode : OverflowMode)
    {current : UInt32} (data : Bytes) {total : Nat}
    {queue : List StreamFrame}
    (queued : Queued frames current.toNat queue)
    (boundary : Boundary frames current.toNat)
    (reached : current.toNat ≤ stream.length)
    (counted : total = bufferedBytes queue) :
    Drains stream frames current data queue
      (StreamReassembly.collect mode current data total queue) := by
  induction queue generalizing current data total with
  | nil => exact .stop data false queued boundary reached counted nofun
  | cons frame rest ih =>
      rw [StreamReassembly.collect]
      by_cases elsewhere : frame.offset ≠ current
      · rw [if_pos elsewhere]
        exact .stop data false queued boundary reached counted
          (queued.ne_of_first_ne elsewhere)
      · have here : frame.offset = current := not_not.mp elsewhere
        have isFrame := queued.known frame List.mem_cons_self
        have carries := queued.carries frame List.mem_cons_self
        have inside := cut.inside frame isFrame
        have addressable := cut.addressable
        have stop : frame.stop = current.toNat + frame.data.length := by
          rw [StreamFrame.stop, here]
        have lengthFits : (UInt32.ofNat frame.data.length).toNat =
            frame.data.length := toNat_offset (by omega)
        obtain ⟨next, fitted, isNext⟩ := mode.exists_fit32
          (show current.toNat + (UInt32.ofNat frame.data.length).toNat < 2 ^ 32
            by omega)
        rw [lengthFits, ← stop] at isNext
        have waiting : Queued frames next.toNat rest := by
          rw [isNext]
          exact queued.tail cut
        have nextBoundary : Boundary frames next.toNat := by
          rw [isNext]
          exact cut.boundary_stop isFrame carries
        have nextReached : next.toNat ≤ stream.length := by
          rw [isNext]
          exact inside
        have left : total - frame.data.length = bufferedBytes rest := by
          rw [counted, bufferedBytes, List.map_cons, List.sum_cons,
            Nat.add_sub_cancel_left]
          rfl
        rw [if_neg elsewhere, fitted]
        simp only
        by_cases isFin : frame.fin = true
        · rw [if_pos isFin]
          have nothing := cut.nil_behind_fin queued isFin
          refine Drains.cons cut isFrame here isNext
            (.stop _ true waiting nextBoundary nextReached left ?_)
          rw [nothing]
          exact nofun
        · rw [if_neg isFin]
          exact Drains.cons cut isFrame here isNext
            (ih _ waiting nextBoundary nextReached left)

/-- The reassembly stands at a boundary of the cut and holds frames of it. -/
structure Aligned (stream : Bytes) (frames : List StreamFrame)
    (reassembly : StreamReassembly) : Prop where
  queued : Queued frames reassembly.expectedOffset.toNat reassembly.frames
  boundary : Boundary frames reassembly.expectedOffset.toNat
  reached : reassembly.expectedOffset.toNat ≤ stream.length
  counted : reassembly.totalBuffered = bufferedBytes reassembly.frames

/-- No frame waits at the expected offset. -/
def Emptied (reassembly : StreamReassembly) : Prop :=
  ∀ frame ∈ reassembly.frames, frame.offset ≠ reassembly.expectedOffset

/-- Handing out data moves the expected offset on, and nothing else is lost. -/
structure Advances (stream : Bytes) (frames : List StreamFrame)
    (before after : StreamReassembly) (output : Bytes) : Prop where
  aligned : Aligned stream frames after
  emptied : Emptied after
  onward : before.expectedOffset.toNat ≤ after.expectedOffset.toNat
  output_eq : output = (stream.drop before.expectedOffset.toNat).take
    (after.expectedOffset.toNat - before.expectedOffset.toNat)
  kept : ∀ frame ∈ after.frames, frame ∈ before.frames
  taken : ∀ frame ∈ before.frames, frame ∈ after.frames ∨
    frame.stop ≤ after.expectedOffset.toNat
  hasFin_eq : after.hasFin = before.hasFin
  finOffset_eq : after.finOffset = before.finOffset

/-- The bytes of an optional chunk. -/
def bytesOf (result : Option ReassembledData) : Bytes :=
  match result with
  | none => []
  | some chunk => chunk.data

theorem getContiguousData_spec (cut : Cut stream frames) (mode : OverflowMode)
    {reassembly : StreamReassembly}
    (aligned : Aligned stream frames reassembly) :
    ∃ result after,
      reassembly.getContiguousData mode = (.returned result, after) ∧
        Advances stream frames reassembly after (bytesOf result) := by
  unfold StreamReassembly.getContiguousData
  by_cases empty : reassembly.frames.isEmpty = true
  · rw [if_pos empty]
    refine ⟨none, reassembly, rfl, aligned, ?_, Nat.le_refl _, ?_,
      fun frame member => member, fun frame member => Or.inl member, rfl, rfl⟩
    · intro frame member
      rw [List.isEmpty_iff.mp empty] at member
      cases member
    · simp [bytesOf]
  · rw [if_neg empty]
    have drains := collect_drains cut mode [] aligned.queued
      aligned.boundary aligned.reached aligned.counted
    generalize StreamReassembly.collect mode reassembly.expectedOffset []
      reassembly.totalBuffered reassembly.frames = collected at drains
    simp only [drains.returned, Bool.false_eq_true, if_false]
    have data := drains.data_eq
    rw [List.nil_append] at data
    by_cases nothing : collected.data.isEmpty = true
    · rw [if_pos nothing]
      -- Without data the collection has not moved.
      have unmoved : collected.currentOffset = reassembly.expectedOffset := by
        have length := congrArg List.length data
        rw [List.isEmpty_iff.mp nothing, List.length_take,
          List.length_drop] at length
        have onward := drains.onward
        have reached := drains.reached
        apply UInt32.toNat_inj.mp
        simp only [List.length_nil] at length
        omega
      refine ⟨none, _, rfl, ⟨?_, aligned.boundary, aligned.reached,
        drains.counted⟩, ?_, Nat.le_refl _, by simp [bytesOf], drains.kept, ?_,
        rfl, rfl⟩
      · rw [← unmoved]
        exact drains.queued
      · intro frame member
        rw [← unmoved]
        exact drains.emptied frame member
      · intro frame member
        rw [← unmoved]
        exact drains.taken frame member
    · rw [if_neg nothing]
      exact ⟨_, _, rfl, ⟨drains.queued, drains.boundary, drains.reached,
        drains.counted⟩, drains.emptied, drains.onward, data, drains.kept,
        drains.taken, rfl, rfl⟩

/-- Where nothing waits at the expected offset, nothing is handed out. -/
theorem getContiguousData_of_emptied (mode : OverflowMode)
    {reassembly : StreamReassembly} (emptied : Emptied reassembly) :
    reassembly.getContiguousData mode = (.returned none, reassembly) := by
  unfold StreamReassembly.getContiguousData
  cases waiting : reassembly.frames with
  | nil => rfl
  | cons frame rest =>
      have elsewhere : frame.offset ≠ reassembly.expectedOffset :=
        emptied frame (by rw [waiting]; exact List.mem_cons_self)
      simp only [List.isEmpty_cons, Bool.false_eq_true, if_false,
        StreamReassembly.collect, if_pos elsewhere, List.isEmpty_nil, if_true]
      rw [← waiting]

theorem collectAll_of_emptied (mode : OverflowMode) (fuel : Nat)
    {reassembly : StreamReassembly} (emptied : Emptied reassembly) :
    StreamReassembly.collectAll mode fuel reassembly =
      (.returned [], some reassembly) := by
  cases fuel with
  | zero => rfl
  | succ fuel =>
      rw [StreamReassembly.collectAll, getContiguousData_of_emptied mode emptied]

/-- The entry of a stream after a chunk was handed out. -/
def slotAfter (result : Option ReassembledData) (after : StreamReassembly) :
    Option StreamReassembly :=
  if result.any ReassembledData.isComplete then none else some after

/-- The loop of `process_frame` ends after at most one chunk. -/
theorem collectAll_spec (cut : Cut stream frames) (mode : OverflowMode)
    (fuel : Nat) {reassembly : StreamReassembly}
    (aligned : Aligned stream frames reassembly) :
    ∃ result after,
      StreamReassembly.collectAll mode (fuel + 1) reassembly =
        (.returned (Option.toList result), slotAfter result after) ∧
      Advances stream frames reassembly after (bytesOf result) := by
  obtain ⟨result, after, collected, advances⟩ :=
    getContiguousData_spec cut mode aligned
  refine ⟨result, after, ?_, advances⟩
  rw [StreamReassembly.collectAll, collected]
  cases result with
  | none => rfl
  | some chunk =>
      simp only [collectAll_of_emptied mode fuel advances.emptied, slotAfter,
        Option.any_some]
      split
      · rfl
      · rfl

theorem mem_insertFrame {frame other : StreamFrame}
    {queue : List StreamFrame} :
    other ∈ StreamReassembly.insertFrame frame queue ↔
      other = frame ∨ other ∈ queue := by
  rw [StreamReassembly.insertFrame, List.mem_orderedInsert]

theorem bufferedBytes_insertFrame (frame : StreamFrame)
    (queue : List StreamFrame) :
    bufferedBytes (StreamReassembly.insertFrame frame queue) =
      bufferedBytes queue + frame.data.length := by
  have same := (List.perm_orderedInsert
    (fun left right : StreamFrame => left.offset < right.offset) frame
      queue).map fun frame => frame.data.length
  unfold bufferedBytes StreamReassembly.insertFrame
  rw [same.sum_nat, List.map_cons, List.sum_cons, Nat.add_comm]

/-- A new offset keeps the queue in strict order. -/
theorem sorted_insertFrame {frame : StreamFrame} {queue : List StreamFrame}
    (sorted : queue.Pairwise fun left right => left.offset < right.offset)
    (new : ∀ other ∈ queue, other.offset ≠ frame.offset) :
    (StreamReassembly.insertFrame frame queue).Pairwise
      fun left right => left.offset < right.offset := by
  induction queue with
  | nil => exact List.pairwise_singleton _ _
  | cons first rest ih =>
      obtain ⟨behind, restSorted⟩ := List.pairwise_cons.mp sorted
      rw [StreamReassembly.insertFrame, List.orderedInsert_cons]
      split
      · rename_i before
        refine List.pairwise_cons.mpr ⟨?_, sorted⟩
        intro other member
        rcases List.mem_cons.mp member with isFirst | later
        · rw [isFirst]
          exact before
        · exact UInt32.lt_trans before (behind other later)
      · rename_i notBefore
        have after : first.offset < frame.offset := by
          have different := new first List.mem_cons_self
          rw [UInt32.lt_iff_toNat_lt] at notBefore ⊢
          have unequal : first.offset.toNat ≠ frame.offset.toNat :=
            fun same => different (UInt32.toNat_inj.mp same)
          omega
        refine List.pairwise_cons.mpr ⟨?_, ih restSorted
          (fun other member => new other (List.mem_cons_of_mem _ member))⟩
        intro other member
        rcases mem_insertFrame.mp member with isFrame | later
        · rw [isFrame]
          exact after
        · exact behind other later

/-- The frame passes validation and there is room for it. -/
def accepts (mode : OverflowMode) (reassembly : StreamReassembly)
    (frame : StreamFrame) : Bool :=
  reassembly.validateFrame mode frame == some .valid &&
    decide (reassembly.totalBuffered + frame.data.length ≤
      reassembly.maxBufferSize)

abbrev Answer : Type := Outcome FrameHandlerError (List ReassembledData)

/-- The chunks that an answer hands out. -/
def chunksOf : Answer → List ReassembledData
  | .returned results => results
  | _ => []

/-- The data that an answer hands out. -/
def handedOut (answer : Answer) : Bytes :=
  ((chunksOf answer).map ReassembledData.data).flatten

/-- The frame was turned away for want of room, and has to be sent again. -/
def refusedForRoom : Answer → Bool
  | .failed (.bufferOverflow _) => true
  | .failed (.outOfOrder _ _) => true
  | .panicked => true
  | _ => false

theorem any_offset_iff {frame : StreamFrame} {queue : List StreamFrame} :
    queue.any (fun other => other.offset == frame.offset) = true ↔
      ∃ other ∈ queue, other.offset = frame.offset := by
  simp

/-- What validation says of a frame. -/
theorem validateFrame_cases (mode : OverflowMode)
    (reassembly : StreamReassembly) (frame : StreamFrame) :
    match reassembly.validateFrame mode frame with
    | none => True
    | some .outOfOrder => True
    | some .duplicate =>
        ∃ other ∈ reassembly.frames, other.offset = frame.offset
    | some (.invalid _) =>
        (frame.fin = true ∧ reassembly.hasFin = true) ∨ ¬ frame.Carries
    | some .valid =>
        (∀ other ∈ reassembly.frames, other.offset ≠ frame.offset) ∧
          ¬ (frame.fin = true ∧ reassembly.hasFin = true) ∧
            frame.Carries := by
  unfold StreamReassembly.validateFrame
  by_cases waits : reassembly.frames.any
      (fun other => other.offset == frame.offset) = true
  · rw [if_pos waits]
    exact any_offset_iff.mp waits
  · rw [if_neg waits]
    cases mode.fit32 (reassembly.expectedOffset.toNat +
        (UInt32.ofNat reassembly.maxBufferSize).toNat) with
    | none => trivial
    | some limit =>
        simp only [Option.map_some]
        by_cases far : frame.offset > limit
        · rw [if_pos far]
          trivial
        · rw [if_neg far]
          by_cases second : (frame.fin && reassembly.hasFin) = true
          · rw [if_pos second]
            exact Or.inl (Bool.and_eq_true_iff.mp second)
          · rw [if_neg second]
            by_cases nothing : (frame.data.isEmpty && !frame.fin) = true
            · rw [if_pos nothing]
              right
              intro carries
              rcases carries with nonempty | isFin
              · simp [nonempty] at nothing
              · simp [isFin] at nothing
            · rw [if_neg nothing]
              refine ⟨?_, fun both => second (Bool.and_eq_true_iff.mpr both), ?_⟩
              · intro other member same
                exact waits (any_offset_iff.mpr ⟨other, member, same⟩)
              · by_contra carriesNot
                unfold StreamFrame.Carries at carriesNot
                simp only [ne_eq, not_or, not_not,
                  Bool.not_eq_true] at carriesNot
                exact nothing (by simp [carriesNot])

/-- A frame that is not accepted changes nothing; it waits already, or the FIN
has been seen, or it carries nothing, unless there is no room. -/
theorem processFrame_of_not_accepted {mode : OverflowMode}
    {reassembly : StreamReassembly} {frame : StreamFrame}
    (turnedAway : accepts mode reassembly frame = false) :
    (reassembly.processFrame mode frame).2 = some reassembly ∧
      handedOut (reassembly.processFrame mode frame).1 = [] ∧
      (refusedForRoom (reassembly.processFrame mode frame).1 = false →
        (∃ other ∈ reassembly.frames, other.offset = frame.offset) ∨
          (frame.fin = true ∧ reassembly.hasFin = true) ∨
            ¬ frame.Carries) := by
  have meaning := validateFrame_cases mode reassembly frame
  unfold accepts at turnedAway
  unfold StreamReassembly.processFrame
  cases validation : reassembly.validateFrame mode frame with
  | none => exact ⟨rfl, rfl, fun refused => by cases refused⟩
  | some verdict =>
      rw [validation] at meaning turnedAway
      cases verdict with
      | duplicate => exact ⟨rfl, rfl, fun _ => Or.inl meaning⟩
      | outOfOrder => exact ⟨rfl, rfl, fun refused => by cases refused⟩
      | invalid reason => exact ⟨rfl, rfl, fun _ => Or.inr meaning⟩
      | valid =>
          have full : reassembly.totalBuffered + frame.data.length >
              reassembly.maxBufferSize := by
            simpa using turnedAway
          simp only [StreamReassembly.addFrame, if_pos full]
          exact ⟨trivial, rfl, fun refused => by cases refused⟩

/-- The reassembly with an accepted frame in its queue. -/
def withFrame (stream : Bytes) (reassembly : StreamReassembly)
    (frame : StreamFrame) : StreamReassembly :=
  StreamReassembly.pushFrame
    { reassembly with
      hasFin := reassembly.hasFin || frame.fin
      finOffset :=
        if frame.fin then some (UInt32.ofNat stream.length)
        else reassembly.finOffset } frame

theorem processFrame_of_accepted (cut : Cut stream frames)
    {mode : OverflowMode} {reassembly : StreamReassembly}
    {frame : StreamFrame} (member : frame ∈ frames)
    (accepted : accepts mode reassembly frame = true) :
    reassembly.processFrame mode frame =
      StreamReassembly.collectAll mode
        ((withFrame stream reassembly frame).frames.length + 1)
        (withFrame stream reassembly frame) := by
  unfold accepts at accepted
  rw [Bool.and_eq_true, beq_iff_eq, decide_eq_true_eq] at accepted
  obtain ⟨valid, room⟩ := accepted
  have meaning := validateFrame_cases mode reassembly frame
  rw [valid] at meaning
  obtain ⟨new, notSecond, _⟩ := meaning
  have notFull : ¬ reassembly.totalBuffered + frame.data.length >
      reassembly.maxBufferSize := by omega
  have notWaiting : ¬ reassembly.frames.any
      (fun other => other.offset == frame.offset) = true := by
    intro waits
    obtain ⟨other, isOther, same⟩ := any_offset_iff.mp waits
    exact new other isOther same
  unfold StreamReassembly.processFrame
  rw [valid]
  simp only [StreamReassembly.addFrame, if_neg notFull]
  rw [if_neg notWaiting]
  by_cases isFin : frame.fin = true
  · have first : reassembly.hasFin = false := by
      by_contra seen
      exact notSecond ⟨isFin, by simpa using seen⟩
    have stops := cut.finStops frame member isFin
    have addressable := cut.addressable
    unfold StreamFrame.stop at stops
    have lengthFits : (UInt32.ofNat frame.data.length).toNat =
        frame.data.length := toNat_offset (by omega)
    obtain ⟨finOffset, fitted, isEnd⟩ := mode.exists_fit32
      (show frame.offset.toNat + (UInt32.ofNat frame.data.length).toNat <
        2 ^ 32 by omega)
    have isLength : finOffset = UInt32.ofNat stream.length := by
      apply UInt32.toNat_inj.mp
      rw [isEnd, lengthFits, stops, toNat_offset addressable]
    rw [if_pos isFin, first]
    simp only [Bool.false_eq_true, if_false, fitted, isLength]
    simp [withFrame, isFin, first]
  · rw [if_neg isFin]
    simp [withFrame, isFin]

/-- The handler still has the stream, unless this is its first frame, and the
frame is not accepted when it starts before the expected offset. -/
def Fresh (mode : OverflowMode) (streamId : UInt32) (maxBufferPerStream : Nat)
    (past : List (StreamFrame × Answer)) (slot : Option StreamReassembly)
    (frame : StreamFrame) : Prop :=
  let reassembly := slot.getD (.new streamId maxBufferPerStream)
  (slot = none → past = []) ∧
    (accepts mode reassembly frame = true →
      reassembly.expectedOffset ≤ frame.offset)

instance Fresh.decidable (mode : OverflowMode) (streamId : UInt32)
    (maxBufferPerStream : Nat) (past : List (StreamFrame × Answer))
    (slot : Option StreamReassembly) (frame : StreamFrame) :
    Decidable (Fresh mode streamId maxBufferPerStream past slot frame) :=
  inferInstanceAs (Decidable ((_ → _) ∧ (_ → _)))

/-- A chunk that was handed out completed the stream. -/
def Completed (past : List (StreamFrame × Answer)) : Prop :=
  ∃ entry ∈ past, (chunksOf entry.2).any ReassembledData.isComplete = true

instance Completed.decidable (past : List (StreamFrame × Answer)) :
    Decidable (Completed past) :=
  inferInstanceAs (Decidable (∃ entry ∈ past, _))

/-- The data handed out so far. -/
def delivered (past : List (StreamFrame × Answer)) : Bytes :=
  past.flatMap fun entry => handedOut entry.2

/-- The frame has arrived when there was room for it. -/
def Arrived (past : List (StreamFrame × Answer)) (frame : StreamFrame) : Prop :=
  ∃ entry ∈ past, entry.1 = frame ∧ refusedForRoom entry.2 = false

instance Arrived.decidable (past : List (StreamFrame × Answer))
    (frame : StreamFrame) : Decidable (Arrived past frame) :=
  inferInstanceAs (Decidable (∃ entry ∈ past, _ ∧ _))

/-- The frame waits or has been handed out. -/
def Held (reassembly : StreamReassembly) (frame : StreamFrame) : Prop :=
  frame ∈ reassembly.frames ∨
    frame.stop ≤ reassembly.expectedOffset.toNat

structure Reassembles (stream : Bytes) (frames : List StreamFrame)
    (past : List (StreamFrame × Answer)) (reassembly : StreamReassembly) :
    Prop where
  aligned : Aligned stream frames reassembly
  emptied : Emptied reassembly
  delivered_eq : delivered past =
    stream.take reassembly.expectedOffset.toNat
  finOffset_eq : reassembly.hasFin = true →
    reassembly.finOffset = some (UInt32.ofNat stream.length)
  finHeld : reassembly.hasFin = true → ∀ frame ∈ frames, frame.fin = true →
    Held reassembly frame
  queuedFin : ∀ frame ∈ reassembly.frames, frame.fin = true →
    reassembly.hasFin = true
  arrivedHeld : ∀ frame ∈ frames, frame.Carries → Arrived past frame →
    Held reassembly frame
  arrivedFin : ∀ frame ∈ frames, frame.fin = true → Arrived past frame →
    reassembly.hasFin = true

theorem delivered_concat (past : List (StreamFrame × Answer))
    (last : StreamFrame × Answer) :
    delivered (past ++ [last]) = delivered past ++ handedOut last.2 := by
  simp [delivered]

theorem arrived_concat {past : List (StreamFrame × Answer)}
    {frame last : StreamFrame} {answer : Answer}
    (arrived : Arrived (past ++ [(last, answer)]) frame) :
    Arrived past frame ∨
      (frame = last ∧ refusedForRoom answer = false) := by
  obtain ⟨entry, member, isFrame, room⟩ := arrived
  rcases List.mem_append.mp member with earlier | isLast
  · exact Or.inl ⟨entry, earlier, isFrame, room⟩
  · rw [List.mem_singleton.mp isLast] at isFrame room
    exact Or.inr ⟨isFrame.symm, room⟩

variable {mode : OverflowMode} {reassembly : StreamReassembly}
  {past : List (StreamFrame × Answer)} {frame : StreamFrame}

/-- A frame that is turned away leaves everything as it is. -/
theorem Reassembles.turnAway (cut : Cut stream frames)
    (holds : Reassembles stream frames past reassembly)
    (member : frame ∈ frames)
    (turnedAway : accepts mode reassembly frame = false) :
    (reassembly.processFrame mode frame).2 = some reassembly ∧
      Reassembles stream frames
        (past ++ [(frame, (reassembly.processFrame mode frame).1)])
        reassembly := by
  obtain ⟨same, nothing, reason⟩ := processFrame_of_not_accepted turnedAway
  have queued := holds.aligned.queued
  have isWaiting : ∀ waiting ∈ reassembly.frames, frame.Carries →
      waiting.offset = frame.offset → frame ∈ reassembly.frames := by
    intro waiting inQueue carries sameOffset
    have same := cut.unique waiting (queued.known waiting inQueue) frame member
      (queued.carries waiting inQueue) carries sameOffset
    exact same ▸ inQueue
  refine ⟨same, holds.aligned, holds.emptied, ?_, holds.finOffset_eq,
    holds.finHeld, holds.queuedFin, ?_, ?_⟩
  · rw [delivered_concat, nothing, List.append_nil, holds.delivered_eq]
  · intro other isOther carries arrived
    rcases arrived_concat arrived with earlier | ⟨isFrame, room⟩
    · exact holds.arrivedHeld other isOther carries earlier
    · rw [isFrame] at carries ⊢
      rcases reason room with ⟨waiting, inQueue, sameOffset⟩ |
          ⟨isFin, seen⟩ | carriesNot
      · exact Or.inl (isWaiting waiting inQueue carries sameOffset)
      · exact holds.finHeld seen frame member isFin
      · exact absurd carries carriesNot
  · intro other isOther isFin arrived
    rcases arrived_concat arrived with earlier | ⟨isFrame, room⟩
    · exact holds.arrivedFin other isOther isFin earlier
    · rw [isFrame] at isFin
      rcases reason room with ⟨waiting, inQueue, sameOffset⟩ | ⟨_, seen⟩ |
          carriesNot
      · exact holds.queuedFin frame
          (isWaiting waiting inQueue (Or.inr isFin) sameOffset) isFin
      · exact seen
      · exact absurd (Or.inr isFin) carriesNot

theorem handedOut_toList (result : Option ReassembledData) :
    handedOut (.returned result.toList) = bytesOf result := by
  cases result with
  | none => rfl
  | some chunk => simp [handedOut, chunksOf, bytesOf]

/-- A fresh frame joins the queue in its place. -/
theorem Aligned.withFrame (aligned : Aligned stream frames reassembly)
    (member : frame ∈ frames) (carries : frame.Carries)
    (new : ∀ other ∈ reassembly.frames, other.offset ≠ frame.offset)
    (ahead : reassembly.expectedOffset ≤ frame.offset) :
    Aligned stream frames (Stream.withFrame stream reassembly frame) := by
  have queued := aligned.queued
  refine ⟨⟨?_, ?_, ?_, sorted_insertFrame queued.sorted new⟩,
    aligned.boundary, aligned.reached, ?_⟩
  · intro other inQueue
    rcases mem_insertFrame.mp inQueue with isFrame | waiting
    · rw [isFrame]
      exact member
    · exact queued.known other waiting
  · intro other inQueue
    rcases mem_insertFrame.mp inQueue with isFrame | waiting
    · rw [isFrame]
      exact carries
    · exact queued.carries other waiting
  · intro other inQueue
    rcases mem_insertFrame.mp inQueue with isFrame | waiting
    · rw [isFrame]
      exact UInt32.le_iff_toNat_le.mp ahead
    · exact queued.ahead other waiting
  · show reassembly.totalBuffered + frame.data.length = _
    rw [aligned.counted]
    exact (bufferedBytes_insertFrame frame reassembly.frames).symm

/-- A fresh frame is handed out with everything it was holding up, or waits. -/
theorem Reassembles.accept (cut : Cut stream frames)
    (holds : Reassembles stream frames past reassembly)
    (member : frame ∈ frames)
    (ahead : reassembly.expectedOffset ≤ frame.offset)
    (accepted : accepts mode reassembly frame = true) :
    ∃ result after,
      reassembly.processFrame mode frame =
        (.returned (Option.toList result), slotAfter result after) ∧
      Reassembles stream frames
        (past ++ [(frame, .returned (Option.toList result))]) after := by
  have isValid : reassembly.validateFrame mode frame = some .valid := by
    unfold accepts at accepted
    rw [Bool.and_eq_true, beq_iff_eq] at accepted
    exact accepted.1
  have meaning := validateFrame_cases mode reassembly frame
  rw [isValid] at meaning
  obtain ⟨new, _, carries⟩ := meaning
  have aligned := holds.aligned.withFrame member carries new ahead
  obtain ⟨result, after, collected, advances⟩ := collectAll_spec cut mode
    (withFrame stream reassembly frame).frames.length aligned
  refine ⟨result, after,
    (processFrame_of_accepted cut member accepted).trans collected, ?_⟩
  have held : ∀ other, Held reassembly other → Held after other := by
    intro other isHeld
    rcases isHeld with waiting | handed
    · exact advances.taken other (mem_insertFrame.mpr (Or.inr waiting))
    · exact Or.inr (Nat.le_trans handed advances.onward)
  have frameHeld : Held after frame :=
    advances.taken frame (mem_insertFrame.mpr (Or.inl rfl))
  have hasFin : after.hasFin = (reassembly.hasFin || frame.fin) :=
    advances.hasFin_eq
  refine ⟨advances.aligned, advances.emptied, ?_, ?_, ?_, ?_, ?_, ?_⟩
  · have onward : reassembly.expectedOffset.toNat ≤
        after.expectedOffset.toNat := advances.onward
    have split : stream.take after.expectedOffset.toNat =
        stream.take reassembly.expectedOffset.toNat ++
          (stream.drop reassembly.expectedOffset.toNat).take
            (after.expectedOffset.toNat -
              reassembly.expectedOffset.toNat) := by
      rw [← List.take_add, Nat.add_sub_cancel' onward]
    rw [delivered_concat, handedOut_toList, advances.output_eq,
      holds.delivered_eq]
    exact split.symm
  · intro seen
    have finOffset : after.finOffset = if frame.fin then
        some (UInt32.ofNat stream.length) else reassembly.finOffset :=
      advances.finOffset_eq
    rw [finOffset]
    split
    · rfl
    · rename_i notFin
      rw [hasFin, Bool.or_eq_true] at seen
      exact holds.finOffset_eq (seen.resolve_right notFin)
  · intro seen other isOther isFin
    rw [hasFin, Bool.or_eq_true] at seen
    rcases seen with before | frameFin
    · exact held other (holds.finHeld before other isOther isFin)
    · rw [cut.finUnique other isOther frame member isFin frameFin]
      exact frameHeld
  · intro other inQueue isFin
    rw [hasFin, Bool.or_eq_true]
    rcases mem_insertFrame.mp (advances.kept other inQueue) with
      isFrame | waiting
    · right
      rw [← isFrame]
      exact isFin
    · exact Or.inl (holds.queuedFin other waiting isFin)
  · intro other isOther otherCarries arrived
    rcases arrived_concat arrived with earlier | ⟨isFrame, _⟩
    · exact held other (holds.arrivedHeld other isOther otherCarries earlier)
    · rw [isFrame]
      exact frameHeld
  · intro other isOther isFin arrived
    rw [hasFin, Bool.or_eq_true]
    rcases arrived_concat arrived with earlier | ⟨isFrame, _⟩
    · exact Or.inl (holds.arrivedFin other isOther isFin earlier)
    · right
      rw [← isFrame]
      exact isFin

theorem reassembles_new (stream : Bytes) (frames : List StreamFrame)
    (streamId : UInt32) (maxBufferSize : Nat) :
    Reassembles stream frames [] (.new streamId maxBufferSize) := by
  refine ⟨⟨⟨?_, ?_, ?_, List.Pairwise.nil⟩, ?_, Nat.zero_le _, rfl⟩, ?_, rfl, ?_,
    ?_, ?_, ?_, ?_⟩
  · intro frame member
    cases member
  · intro frame member
    cases member
  · intro frame member
    cases member
  · intro frame _
    exact Or.inr (Nat.zero_le _)
  · intro frame member
    cases member
  · intro seen
    cases seen
  · intro seen
    cases seen
  · intro frame member
    cases member
  · intro frame _ _ arrived
    obtain ⟨_, member, _⟩ := arrived
    cases member
  · intro frame _ _ arrived
    obtain ⟨_, member, _⟩ := arrived
    cases member

/-- When every frame has arrived, nothing waits and the stream is complete. -/
theorem Reassembles.isComplete (cut : Cut stream frames)
    (holds : Reassembles stream frames past reassembly)
    (all : ∀ frame ∈ frames, Arrived past frame) :
    reassembly.isComplete = true := by
  have queued := holds.aligned.queued
  -- The frame at the expected offset would wait there or be handed out.
  have atEnd : reassembly.expectedOffset.toNat = stream.length := by
    by_contra elsewhere
    have reached := holds.aligned.reached
    obtain ⟨frame, member, before, behind⟩ :=
      cut.covered reassembly.expectedOffset.toNat (by omega)
    have carries : frame.Carries := by
      left
      intro empty
      rw [StreamFrame.stop, empty, List.length_nil] at behind
      omega
    have starts : frame.offset.toNat = reassembly.expectedOffset.toNat := by
      rcases holds.aligned.boundary frame member with stops | ahead
      · omega
      · omega
    rcases holds.arrivedHeld frame member carries (all frame member) with
      waiting | handed
    · exact holds.emptied frame waiting (UInt32.toNat_inj.mp starts)
    · omega
  have nothing : reassembly.frames = [] := by
    by_contra waiting
    obtain ⟨frame, inQueue⟩ := List.exists_mem_of_ne_nil _ waiting
    have inside := cut.inside frame (queued.known frame inQueue)
    have ahead := queued.ahead frame inQueue
    unfold StreamFrame.stop at inside
    exact holds.emptied frame inQueue (UInt32.toNat_inj.mp (by omega))
  obtain ⟨last, isLast, isFin⟩ := cut.finExists
  have seen := holds.arrivedFin last isLast isFin (all last isLast)
  have isEnd : UInt32.ofNat stream.length = reassembly.expectedOffset := by
    apply UInt32.toNat_inj.mp
    rw [toNat_offset cut.addressable, atEnd]
  unfold StreamReassembly.isComplete
  rw [seen, nothing, holds.finOffset_eq seen, isEnd]
  simp

/-- What the handler has of the stream: the reassembly of what has arrived, or
nothing before the first frame and behind the last chunk. -/
structure Handles (stream : Bytes) (frames : List StreamFrame)
    (past : List (StreamFrame × Answer)) (slot : Option StreamReassembly) :
    Prop where
  delivered_prefix : delivered past <+: stream
  listed : ∀ reassembly ∈ slot, Reassembles stream frames past reassembly
  absent : slot = none → past = [] ∨ Completed past

theorem Reassembles.delivered_prefix
    (holds : Reassembles stream frames past reassembly) :
    delivered past <+: stream := by
  rw [holds.delivered_eq]
  exact List.take_prefix _ _

theorem Reassembles.handles
    (holds : Reassembles stream frames past reassembly) :
    Handles stream frames past (some reassembly) := by
  refine ⟨holds.delivered_prefix, ?_, nofun⟩
  intro other isReassembly
  rw [← Option.some_inj.mp isReassembly]
  exact holds

theorem handles_none (stream : Bytes) (frames : List StreamFrame) :
    Handles stream frames [] none :=
  ⟨List.nil_prefix, nofun, fun _ => Or.inl rfl⟩

/-- The entry that a frame finds reassembles what has arrived. -/
theorem Handles.current {slot : Option StreamReassembly}
    (holds : Handles stream frames past slot) (kept : slot = none → past = [])
    (streamId : UInt32) (maxBufferPerStream : Nat) :
    Reassembles stream frames past
      (slot.getD (.new streamId maxBufferPerStream)) := by
  cases slot with
  | none =>
      rw [kept rfl]
      exact reassembles_new stream frames streamId maxBufferPerStream
  | some reassembly => exact holds.listed reassembly rfl

theorem Handles.processFrame (cut : Cut stream frames)
    {slot : Option StreamReassembly} {streamId : UInt32}
    {maxBufferPerStream : Nat} (holds : Handles stream frames past slot)
    (member : frame ∈ frames)
    (fresh : Fresh mode streamId maxBufferPerStream past slot frame) :
    Handles stream frames
      (past ++ [(frame, (FrameHandler.processFrame mode streamId
        maxBufferPerStream slot frame).1)])
      (FrameHandler.processFrame mode streamId maxBufferPerStream slot
        frame).2 := by
  have current := holds.current fresh.1 streamId maxBufferPerStream
  cases accepted : accepts mode
      (slot.getD (.new streamId maxBufferPerStream)) frame with
  | false =>
      obtain ⟨same, reassembles⟩ := current.turnAway cut member accepted
      rw [FrameHandler.processFrame, same]
      exact reassembles.handles
  | true =>
      obtain ⟨result, after, processed, reassembles⟩ :=
        current.accept cut member (fresh.2 accepted) accepted
      rw [FrameHandler.processFrame, processed, slotAfter]
      split
      · rename_i completes
        refine ⟨reassembles.delivered_prefix, nofun, fun _ => Or.inr ?_⟩
        refine ⟨_, List.mem_append_right _ List.mem_cons_self, ?_⟩
        cases result with
        | none => cases completes
        | some chunk => simpa [chunksOf] using completes
      · exact reassembles.handles

/-- When every frame has arrived, the stream has been reported complete. -/
theorem Handles.isComplete {slot : Option StreamReassembly}
    (cut : Cut stream frames) (holds : Handles stream frames past slot)
    (all : ∀ frame ∈ frames, Arrived past frame) :
    Completed past ∨ FrameHandler.isStreamComplete slot = true := by
  cases slot with
  | none =>
      left
      rcases holds.absent rfl with nothing | completed
      · obtain ⟨last, isLast, _⟩ := cut.finExists
        obtain ⟨entry, member, _⟩ := all last isLast
        rw [nothing] at member
        cases member
      · exact completed
  | some reassembly =>
      right
      exact (holds.listed reassembly rfl).isComplete cut all

theorem handles_history (cut : Cut stream frames) (mode : OverflowMode)
    (streamId : UInt32) (maxBufferPerStream : Nat)
    {arrivals : List StreamFrame} (known : ∀ frame ∈ arrivals, frame ∈ frames)
    (fresh : Trace.AlongPast
      (FrameHandler.processFrame mode streamId maxBufferPerStream)
      (Fresh mode streamId maxBufferPerStream) [] none arrivals) :
    Handles stream frames
      (Trace.history
        (FrameHandler.processFrame mode streamId maxBufferPerStream) none
        arrivals)
      (Trace.final
        (FrameHandler.processFrame mode streamId maxBufferPerStream) none
        arrivals) := by
  refine Trace.invariant_along (handles_none stream frames) ?_ arrivals
    (fresh.and_forall known)
  intro past slot frame meets holds
  exact holds.processFrame cut meets.2 meets.1

/-- The frames of one stream in any order, some of them again and again: as
long as none is accepted that starts before the expected offset and none
arrives after the stream was removed, the data handed out is a front part of
the stream, no frame is held back that starts at the expected offset, the
buffer is counted right, and the stream is complete once every frame has
arrived. -/
theorem stream_reassembled (mode : OverflowMode) (streamId : UInt32)
    (maxBufferPerStream : Nat) {chunks : List Bytes} {last : Bytes}
    (addressable : (chunks.flatten ++ last).length < 2 ^ 32)
    {arrivals : List StreamFrame}
    (sent : ∀ frame ∈ arrivals, frame ∈ framesFrom streamId 0 chunks last)
    (fresh : Trace.AlongPast
      (FrameHandler.processFrame mode streamId maxBufferPerStream)
      (Fresh mode streamId maxBufferPerStream) [] none arrivals)
    {before : List StreamFrame} (isPrefix : before <+: arrivals) :
    let past := Trace.history
      (FrameHandler.processFrame mode streamId maxBufferPerStream) none before
    let slot := Trace.final
      (FrameHandler.processFrame mode streamId maxBufferPerStream) none before
    delivered past <+: chunks.flatten ++ last ∧
      (∀ reassembly ∈ slot,
        (∀ frame ∈ reassembly.frames,
          frame.offset ≠ reassembly.expectedOffset) ∧
        reassembly.totalBuffered =
          (reassembly.frames.map fun frame => frame.data.length).sum) ∧
      ((∀ frame ∈ framesFrom streamId 0 chunks last, Arrived past frame) →
        Completed past ∨ FrameHandler.isStreamComplete slot = true) := by
  have cut := cut_framesFrom streamId addressable
  have holds := handles_history cut mode streamId maxBufferPerStream
    (fun frame member => sent frame (isPrefix.subset member))
    (fresh.front isPrefix)
  refine ⟨holds.delivered_prefix, ?_, holds.isComplete cut⟩
  intro reassembly isListed
  have reassembles := holds.listed reassembly isListed
  exact ⟨reassembles.emptied, reassembles.aligned.counted⟩

/-- Two chunks and an empty last frame, the FIN first and one chunk twice while
it waits. -/
theorem stream_reassembled_shuffled :
    let arrivals : List StreamFrame :=
      [⟨7, 3, true, []⟩, ⟨7, 2, false, [3]⟩, ⟨7, 2, false, [3]⟩,
        ⟨7, 0, false, [1, 2]⟩]
    Completed (Trace.history (FrameHandler.processFrame .checked 7 100) none
        arrivals) ∨
      FrameHandler.isStreamComplete
        (Trace.final (FrameHandler.processFrame .checked 7 100) none
          arrivals) = true := by
  intro arrivals
  have addressable : ([[1, 2], [3]].flatten ++ ([] : Bytes)).length <
      2 ^ 32 := by
    decide
  have sent : ∀ frame ∈ arrivals, frame ∈ framesFrom 7 0 [[1, 2], [3]] [] := by
    decide
  have fresh : Trace.AlongPast (FrameHandler.processFrame .checked 7 100)
      (Fresh .checked 7 100) [] none arrivals := by
    decide +kernel
  exact (stream_reassembled .checked 7 100 addressable sent fresh
    (List.prefix_refl _)).2.2 (by decide +kernel)

/-- A retransmission that arrives after its data was handed out is queued once
more, and the end of the stream waits behind it for ever.  One that arrives
after the whole stream was handed out is handed out once more. -/
theorem stream_blocked_by_retransmission :
    (let arrivals : List StreamFrame :=
        [⟨7, 0, false, [1, 2]⟩, ⟨7, 0, false, [1, 2]⟩, ⟨7, 2, true, [3]⟩]
      let past := Trace.history (FrameHandler.processFrame .checked 7 100)
        none arrivals
      let slot := Trace.final (FrameHandler.processFrame .checked 7 100)
        none arrivals
      arrivals ⊆ framesFrom 7 0 [[1, 2]] [3] ∧
        (∀ frame ∈ framesFrom 7 0 [[1, 2]] [3], Arrived past frame) ∧
        (∃ reassembly ∈ slot, ∃ frame ∈ reassembly.frames,
          frame.offset = reassembly.expectedOffset) ∧
        ¬ Completed past ∧ FrameHandler.isStreamComplete slot = false) ∧
      let arrivals : List StreamFrame :=
        [⟨7, 0, true, [1, 2, 3]⟩, ⟨7, 0, true, [1, 2, 3]⟩]
      arrivals ⊆ framesFrom 7 0 [] [1, 2, 3] ∧
        delivered (Trace.history (FrameHandler.processFrame .checked 7 100)
          none arrivals) = [1, 2, 3, 1, 2, 3] := by
  refine ⟨⟨?_, ?_, ?_, ?_, ?_⟩, ?_, ?_⟩
  · decide
  · decide +kernel
  · decide +kernel
  · decide +kernel
  · decide +kernel
  · decide
  · decide +kernel

end NyxNet.Stream
