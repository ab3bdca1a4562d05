import NyxNet.Stream.StreamState

/-!
# Stream offsets

When the offsets of a `Stream` are exact.  A stream counts the bytes it sends
and the bytes it receives in `u32`; while neither count reaches the end of the
type, no sum wraps and the map of sent segments loses nothing.
-/

namespace NyxNet.StreamMachine

namespace Stream

/-- The sums that a call computes stay within `u32`, and with them the lengths
cast to it. -/
def ExactSums (stream : Stream) : Call → Prop
  | .sendData data _ =>
      maySend stream.state = true →
        stream.sendOffset.toNat + data.length < 2 ^ 32
  | .finish => True
  | .onReceive frame =>
      frame.offset = stream.recvOffset →
        stream.recvOffset.toNat + frame.data.length < 2 ^ 32
  | .onAck _ =>
      ∀ (offset : UInt32) (segment : SentSegment),
        stream.sent[offset]? = some segment →
          offset.toNat + segment.len < 2 ^ 32

/-- The call is an ACK of the whole segment. -/
def Acknowledges (call : Call) (offset : UInt32) (segment : SentSegment) :
    Prop :=
  ∃ largest, call = .onAck largest ∧
    offset.toNat + segment.len ≤ largest.toNat

/-- An unacknowledged segment stays as it is, and a new one is one more. -/
structure SegmentsKept (before : Stream) (call : Call) (after : Stream) :
    Prop where
  unacknowledged : ∀ (offset : UInt32) (segment : SentSegment),
    before.sent[offset]? = some segment →
      ¬ Acknowledges call offset segment →
        after.sent[offset]? = some segment
  recorded : ∀ data now, call = .sendData data now →
    maySend before.state = true → after.sent.size = before.sent.size + 1

/-- The call computes exact sums and keeps the unacknowledged segments. -/
def Sound (stream : Stream) (call : Call) : Prop :=
  ExactSums stream call ∧ SegmentsKept stream call (stream.perform call).2

/-- The bytes that `send_data` has taken. -/
def sentBytes (past : List (Call × Answer)) : Nat :=
  (past.map fun entry =>
    match entry with
    | (.sendData data _, .frame _) => data.length
    | _ => 0).sum

theorem sentBytes_concat (past : List (Call × Answer)) (entry : Call × Answer) :
    sentBytes (past ++ [entry]) = sentBytes past + sentBytes [entry] := by
  simp [sentBytes]

/-- The bytes sent so far and these stay below 4 GiB and no unacknowledged
segment starts where they will, and data received in order ends below 4 GiB. -/
def WithinOffsets (past : List (Call × Answer)) (stream : Stream) :
    Call → Prop
  | .sendData data _ =>
      maySend stream.state = true →
        sentBytes past + data.length < 2 ^ 32 ∧
          stream.sendOffset ∉ stream.sent
  | .finish => True
  | .onReceive frame =>
      frame.offset = stream.recvOffset →
        frame.offset.toNat + frame.data.length < 2 ^ 32
  | .onAck _ => True

/-- The offset is the number of bytes sent, and no segment ends beyond it. -/
structure Accounted (past : List (Call × Answer)) (stream : Stream) :
    Prop where
  sendOffset : stream.sendOffset.toNat = sentBytes past
  ends : ∀ (offset : UInt32) (segment : SentSegment),
    stream.sent[offset]? = some segment →
      offset.toNat + segment.len ≤ stream.sendOffset.toNat

variable {past : List (Call × Answer)} {stream : Stream}

theorem perform_sendData_of_maySend (data : Bytes) (now : Nat)
    (allowed : maySend stream.state = true) :
    ∃ bytes state, stream.perform (.sendData data now) =
      (.frame bytes,
        { stream with
          state
          sent := stream.sent.insert stream.sendOffset
            { offset := stream.sendOffset, len := data.length,
              timestamp := now }
          sendOffset := stream.sendOffset + UInt32.ofNat data.length }) := by
  rw [perform, sendData, if_pos allowed]
  exact ⟨_, _, rfl⟩

theorem perform_sendData_of_not_maySend (data : Bytes) (now : Nat)
    (refused : ¬ maySend stream.state = true) :
    stream.perform (.sendData data now) = (.panicked, stream) := by
  rw [perform, sendData, if_neg refused]

theorem finish_keeps (stream : Stream) :
    stream.finish.2.sendOffset = stream.sendOffset ∧
      stream.finish.2.sent = stream.sent := by
  rw [finish]
  cases stream.state with
  | idle => exact ⟨rfl, rfl⟩
  | «open» => exact ⟨rfl, rfl⟩
  | halfClosedLocal => exact ⟨rfl, rfl⟩
  | halfClosedRemote => exact ⟨rfl, rfl⟩
  | closed => exact ⟨rfl, rfl⟩

/-- With exact sums an ACK drops the acknowledged segments and no others. -/
theorem lookup_onAck {largest : UInt32}
    (exact : ExactSums stream (.onAck largest)) {offset : UInt32}
    {segment : SentSegment} (present : stream.sent[offset]? = some segment) :
    (stream.onAck largest).sent[offset]? =
      if offset.toNat + segment.len ≤ largest.toNat then none
      else some segment := by
  have sum := toNat_add_length (exact offset segment present)
  rw [onAck]
  simp only [Std.ExtTreeMap.getElem?_filter', present, Option.filter_some,
    UInt32.le_iff_toNat_le, sum]
  by_cases acknowledged : offset.toNat + segment.len ≤ largest.toNat
  · simp [acknowledged]
  · simp [acknowledged]

theorem accounted_new (id : UInt32) : Accounted [] (new id) := by
  refine ⟨rfl, ?_⟩
  intro offset segment present
  cases present

/-- A send of a stream whose account is right. -/
theorem sound_sendData_iff (accounted : Accounted past stream) (data : Bytes)
    (now : Nat) :
    Sound stream (.sendData data now) ↔
      WithinOffsets past stream (.sendData data now) := by
  by_cases allowed : maySend stream.state = true
  · obtain ⟨bytes, state, performed⟩ :=
      perform_sendData_of_maySend data now allowed
    rw [Sound, performed, WithinOffsets, ExactSums, accounted.sendOffset]
    constructor
    · intro sound _
      obtain ⟨exact, kept⟩ := sound
      refine ⟨exact allowed, ?_⟩
      intro occupied
      have size := kept.recorded data now rfl allowed
      rw [Std.ExtTreeMap.size_insert,
        if_pos (Std.ExtTreeMap.contains_iff_mem.mpr occupied)] at size
      omega
    · intro within
      obtain ⟨fits, free⟩ := within allowed
      refine ⟨fun _ => fits, ?_, ?_⟩
      · intro offset segment present _
        simp only [OrderedMap.lookup_insert]
        have different : offset ≠ stream.sendOffset := by
          intro same
          subst same
          exact free (Std.ExtTreeMap.mem_iff_isSome_getElem?.mpr
            (Option.isSome_of_eq_some present))
        rw [if_neg different]
        exact present
      · intro _ _ _ _
        rw [Std.ExtTreeMap.size_insert,
          if_neg (mt Std.ExtTreeMap.contains_iff_mem.mp free)]
  · rw [Sound, perform_sendData_of_not_maySend data now allowed]
    refine iff_of_true ⟨fun may => absurd may allowed, ?_, ?_⟩
      (fun may => absurd may allowed)
    · intro offset segment present _
      exact present
    · intro _ _ _ may
      exact absurd may allowed

/-- A call other than a send adds no segment. -/
theorem not_sendData_recorded {before after : Stream} {call : Call}
    (other : ∀ data now, call ≠ .sendData data now) :
    ∀ data now, call = .sendData data now →
      maySend before.state = true →
        after.sent.size = before.sent.size + 1 := by
  intro data now same
  exact absurd same (other data now)

theorem sound_iff (accounted : Accounted past stream) (call : Call) :
    Sound stream call ↔ WithinOffsets past stream call := by
  cases call with
  | sendData data now => exact sound_sendData_iff accounted data now
  | finish =>
      refine iff_of_true ⟨trivial, ?_, not_sendData_recorded ?_⟩ trivial
      · intro offset segment present _
        rw [perform, (finish_keeps stream).2]
        exact present
      · intro data now
        exact Call.noConfusion
  | onReceive frame =>
      rw [Sound, ExactSums, WithinOffsets]
      constructor
      · intro sound inOrder
        rw [inOrder]
        exact sound.1 inOrder
      · intro within
        refine ⟨?_, ?_, not_sendData_recorded ?_⟩
        · intro inOrder
          rw [← inOrder]
          exact within inOrder
        · intro offset segment present _
          exact present
        · intro data now
          exact Call.noConfusion
  | onAck largest =>
      have exact : ExactSums stream (.onAck largest) := by
        intro offset segment present
        exact Nat.lt_of_le_of_lt (accounted.ends offset segment present)
          stream.sendOffset.toNat_lt
      refine iff_of_true ⟨exact, ?_, not_sendData_recorded ?_⟩ trivial
      · intro offset segment present unacknowledged
        rw [perform, lookup_onAck exact present, if_neg]
        intro covered
        exact unacknowledged ⟨largest, rfl, covered⟩
      · intro data now
        exact Call.noConfusion

theorem accounted_perform (accounted : Accounted past stream) (call : Call)
    (within : WithinOffsets past stream call) :
    Accounted (past ++ [(call, (stream.perform call).1)])
      (stream.perform call).2 := by
  obtain ⟨sendOffset, ends⟩ := accounted
  cases call with
  | sendData data now =>
      by_cases allowed : maySend stream.state = true
      · obtain ⟨bytes, state, performed⟩ :=
          perform_sendData_of_maySend data now allowed
        obtain ⟨fits, -⟩ := within allowed
        rw [← sendOffset] at fits
        have moved := toNat_add_length fits
        rw [performed]
        refine ⟨?_, ?_⟩
        · rw [sentBytes_concat, moved, sendOffset]
          rfl
        · intro offset segment present
          simp only [moved]
          rcases OrderedMap.lookup_insert_cases present with new | old
          · obtain ⟨rfl, rfl⟩ := new
            exact Nat.le_refl _
          · have earlier := ends offset segment old.2
            omega
      · rw [perform_sendData_of_not_maySend data now allowed]
        refine ⟨?_, ends⟩
        rw [sentBytes_concat, sendOffset]
        rfl
  | finish =>
      obtain ⟨sameOffset, sameSent⟩ := finish_keeps stream
      simp only [perform]
      refine ⟨?_, ?_⟩
      · rw [sentBytes_concat, sameOffset, sendOffset]
        rfl
      · rw [sameOffset, sameSent]
        exact ends
  | onReceive frame =>
      refine ⟨?_, ends⟩
      rw [sentBytes_concat]
      exact sendOffset
  | onAck largest =>
      refine ⟨?_, ?_⟩
      · rw [sentBytes_concat]
        exact sendOffset
      · intro offset segment present
        exact ends offset segment (lookup_of_onAck present)

/-- Every call of a run computes exact sums and keeps the unacknowledged
segments exactly when every call stays within the offsets. -/
theorem offsets_sound_iff (id : UInt32) (calls : List Call) :
    Trace.Along perform Sound (new id) calls ↔
      Trace.AlongPast perform WithinOffsets [] (new id) calls := by
  rw [Trace.along_iff_alongPast perform Sound []]
  apply Trace.alongPast_iff_of_invariant Accounted _ _ calls
    (accounted_new id)
  · intro past stream call accounted
    exact sound_iff accounted call
  · intro past stream call accounted within
    exact accounted_perform accounted call within

/-- After 4 GiB in one call the next byte takes the place of all of them. -/
theorem segment_replaced {data : Bytes} (length : data.length = 2 ^ 32) :
    (Trace.final perform (new 1)
        [.sendData data 0, .sendData [1] 1]).sent[(0 : UInt32)]? =
      some { offset := 0, len := 1, timestamp := 1 } := by
  have wrapped : (0 : UInt32) + UInt32.ofNat (2 ^ 32) = 0 := rfl
  simp only [Trace.final, perform, sendData, new, maySend, if_true, length,
    wrapped, OrderedMap.lookup_insert]
  rfl

/-- Four gigabytes overflow the sum of `send_data`, and the next byte then
replaces them in the map; without an overflow an empty segment is replaced. -/
theorem offsets_wrap :
    (Trace.final perform (new 1)
        [.sendData (List.replicate (2 ^ 32) 0) 0,
          .sendData [1] 1]).sent[(0 : UInt32)]? =
        some { offset := 0, len := 1, timestamp := 1 } ∧
      ¬ Trace.Along perform Sound (new 1)
        [.sendData (List.replicate (2 ^ 32) 0) 0] ∧
      ¬ Trace.Along perform Sound (new 1) [.sendData [] 0, .sendData [1] 1] := by
  refine ⟨segment_replaced List.length_replicate, ?_, ?_⟩
  · intro sound
    have fits := sound.1.1 rfl
    rw [List.length_replicate] at fits
    exact absurd fits (by decide)
  · intro sound
    have kept := sound.2.1.2.unacknowledged 0
      { offset := 0, len := 0, timestamp := 0 } rfl
    have notAcknowledged : ¬ Acknowledges (.sendData [1] 1) 0
        { offset := 0, len := 0, timestamp := 0 } := by
      intro acknowledged
      obtain ⟨largest, ⟨⟩, -⟩ := acknowledged
    have still := kept notAcknowledged
    simp only [perform, sendData, new, maySend, if_true,
      OrderedMap.lookup_insert] at still
    cases still

end Stream

end NyxNet.StreamMachine
